import BankDemo.Biometric.Rules

/-!
# Passkey rows

* Where the credential and the key of a row come from. A rebind of a credential without a row trusts the
  session: it makes a row without a key (`orphan_enabled`). Apart from these, every row holds a pair that
  one verified registration of its user delivered (`pairs_written`).
* When a ceremony succeeds. `finishRegistration` and `finishRebind` write the row of the credential, if
  there is one, else the row of the device; if the credential is enrolled for another device and the
  device has a row already, the first of these collides with the second (`enrolment_commits`).
-/

namespace BankDemo.Biometric

open Prog

variable {env : Env} {s₀ s : State} {tr : List (Step State Call)}

/-! ## Genuine pairs -/

/-- The call, in the state `s`, wrote the credential and the key of a row. -/
inductive Wrote (env : Env) (s : State) (c : Call) (id : Uuid) (row : BiometricEnrollment) : Prop
  /-- A registration of the row's user, which verified and delivered both. -/
  | registered {now : Instant} {deviceId newId : Uuid} {response : Response}
      {requestOrigin : Option String} {info : RegistrationInfo}
      (hcall : c = .finishRegistration now row.userId deviceId response requestOrigin newId)
      (hverified : Registers env now s row.userId response requestOrigin info)
      (hpair : (row.credentialId, row.publicKey) = (info.credentialID, info.credentialPublicKey))
  /-- A rebind, by the row's user, of a credential without a row. A new row has no key. -/
  | adopted {now : Instant} {deviceId newId : Uuid} {response : Response}
      {requestOrigin : Option String}
      (hcall : c = .finishRebind now row.userId deviceId response requestOrigin newId)
      (hverified : Rebinds env now s row.userId response requestOrigin row.credentialId)
      (horphan : s.findCredential row.credentialId = none)
      (hnew : s.enrollments.lookup id = none → row.publicKey = [])

theorem Wrote.congr {c : Call} {id : Uuid} {row row' : BiometricEnrollment}
    (h : Wrote env s c id row) (heq : row.columns = row'.columns) : Wrote env s c id row' := by
  obtain ⟨huser, hcred, hkey⟩ : row.userId = row'.userId ∧ row.credentialId = row'.credentialId ∧
      row.publicKey = row'.publicKey := by
    simpa [BiometricEnrollment.columns] using heq
  cases h with
  | registered hcall hverified hpair =>
    rw [huser] at hcall hverified
    rw [hcred, hkey] at hpair
    exact .registered hcall hverified hpair
  | adopted hcall hverified horphan hnew =>
    rw [huser] at hcall hverified
    rw [hcred] at hverified horphan
    rw [hkey] at hnew
    exact .adopted hcall hverified horphan hnew

/-- The credentials that the call `c` leaves: those from before, and what it wrote. -/
def Accounted (env : Env) (s : State) (c : Call) (s' : State) : Prop :=
  ∀ id row, s'.enrollments.lookup id = some row →
    s.columns id = some row.columns ∨ Wrote env s c id row

theorem Accounted.of_same {c : Call} {s' : State} (h : SameColumns s s') :
    Accounted env s c s' := by
  intro id row hrow
  refine .inl ?_
  rw [← h.columns id, State.columns, hrow]
  rfl

/-- One row was written. -/
theorem Accounted.of_store {c : Call} {s₁ s' : State} {id : Uuid} {row : BiometricEnrollment}
    (hstore : s₁.store id row = .ok s') (hsame : s₁.enrollments = s.enrollments)
    (hwrote : Wrote env s c id row) : Accounted env s c s' := by
  obtain ⟨-, rfl⟩ := store_eq_ok.1 hstore
  intro id' row' hrow'
  rw [Table.lookup_insert_ite, hsame] at hrow'
  split at hrow'
  · rename_i hid
    obtain rfl := Option.some.inj hrow'
    rw [hid]
    exact .inr hwrote
  · refine .inl ?_
    rw [State.columns, hrow']
    rfl

/-- Every call accounts for the credentials it leaves. -/
theorem accounted (c : Call) : Accounted env s c ((handle env c).run s).2 := by
  by_cases hc : c.writesCredentials = false
  · exact .of_same ((handle_columns env hc).run .refl (fun h h' => h.trans h') s)
  have hsame : ∀ {c}, Accounted env s c s := .of_same (.refl s)
  cases c with
  | finishRegistration now userId deviceId response requestOrigin newId =>
    refine ensures_map (Q := fun _ s' => Accounted env s _ s')
      (finishRegistration_ensures (fun info challenges hreg hmine => ?_) fun _ _ => hsame)
    generalize hr : State.register now { s with challenges } userId deviceId info
      (response.transports.getD []) ((s.findCredential info.credentialID).map Prod.fst) newId = r
    cases r with
    | error e => exact hsame
    | ok s' =>
      intro notices
      show Accounted env s _ s'
      cases hfound : s.findCredential info.credentialID with
      | some found =>
        rw [hfound] at hr
        obtain ⟨row, hrow, hstore⟩ := update_eq_ok.1 hr
        obtain rfl : row = found.2 :=
          Option.some.inj (hrow.symm.trans (findCredential_some hfound).1)
        obtain rfl : found.2.userId = userId := hmine _ _ hfound
        exact .of_store hstore rfl (.registered rfl hreg rfl)
      | none =>
        rw [hfound] at hr
        rcases upsert_eq_ok.1 hr with ⟨id', row, hdevice, hstore⟩ | ⟨-, -, hstore⟩
        · obtain ⟨-, rfl, -⟩ := findDevice_some hdevice
          exact .of_store hstore rfl (.registered rfl hreg rfl)
        · exact .of_store hstore rfl (.registered rfl hreg rfl)
  | finishRebind now userId deviceId response requestOrigin newId =>
    refine ensures_map (Q := fun _ s' => Accounted env s _ s') (finishRebind_ensures
      (fun credentialId id' row newCounter challenges _ _ _ => ?_)
      (fun credentialId challenges hreb horphan => ?_) fun _ _ => hsame)
    · generalize hr : State.update { s with challenges } id' (fun row =>
        row.rebound now deviceId newCounter) = r
      cases r with
      | error e => exact hsame
      | ok s' =>
        intro notices
        have hcolumns : SameColumns _ s' := update_columns hr fun _ => rfl
        exact .of_same ⟨hcolumns.columns, hcolumns.keys⟩
    · generalize hr : State.adopt now { s with challenges } userId deviceId credentialId
        (response.transports.getD []) newId = r
      cases r with
      | error e => exact hsame
      | ok s' =>
        intro notices
        show Accounted env s _ s'
        rcases upsert_eq_ok.1 hr with ⟨id', row, hdevice, hstore⟩ | ⟨-, -, hstore⟩
        · obtain ⟨hrow, rfl, -⟩ := findDevice_some hdevice
          refine .of_store hstore rfl (.adopted rfl hreb horphan fun hnew => ?_)
          rw [hrow] at hnew
          cases hnew
        · exact .of_store hstore rfl (.adopted rfl hreb horphan fun _ => rfl)
  | _ => simp [Call.writesCredentials] at hc

/-- The row's credential and key were last written by a call that may write them: one that delivered
both together, or one that adopted an orphan. -/
def LastWritten (env : Env) (tr : List (Step State Call)) (id : Uuid) (row : BiometricEnrollment) :
    Prop :=
  ∃ later x earlier, tr = later ++ x :: earlier ∧ Wrote env x.pre x.call id row ∧
    x.post.columns id = some row.columns ∧ ∀ y ∈ later, y.post.columns id = some row.columns

/-- **Where credentials come from.** In a sequence of calls, from the empty table, the credential and
the key of every row, enabled or not, are a pair that one verified registration of its user delivered,
unless the row has adopted an orphan since; no other call changes them. -/
theorem pairs_written (hstart : s₀.enrollments = ∅) (hrun : Serial (handle env) s₀ tr s) :
    (∀ x ∈ tr, Accounted env x.pre x.call x.post) ∧
      ∀ id row, s.enrollments.lookup id = some row → LastWritten env tr id row := by
  induction hrun with
  | start =>
    refine ⟨by simp, fun id row hrow => ?_⟩
    rw [hstart] at hrow
    cases hrow
  | @call tr s c _ ih =>
    have hstep : Accounted env s c ((handle env c).run s).2 := accounted c
    refine ⟨List.forall_mem_cons.2 ⟨hstep, ih.1⟩, fun id row hrow => ?_⟩
    have hcolumns : ((handle env c).run s).2.columns id = some row.columns := by
      rw [State.columns, hrow]
      rfl
    rcases hstep id row hrow with hkept | hwrote
    · -- the row was there, with the same credential
      obtain ⟨row', hrow', hsame⟩ := Option.map_eq_some_iff.1 hkept
      obtain ⟨later, x, earlier, rfl, hwrote, hpost, hlater⟩ := ih.2 id row' hrow'
      rw [hsame] at hpost hlater
      exact ⟨_ :: later, x, earlier, rfl, hwrote.congr hsame, hpost,
        List.forall_mem_cons.2 ⟨hcolumns, hlater⟩⟩
    · exact ⟨[], _, tr, rfl, hwrote, hcolumns, by simp⟩

/-! ### Orphans -/

/-- Everything verifies, and a registration delivers the text that was signed, with a key. -/
def sampleEnv : Env where
  rpIds := ["localhost"]
  origins := ["http://localhost:3000"]
  hostname _ := none
  parsedChallenge := some
  verifyRegistrationResponse r _ := .ok (some ⟨r.signed, [7], 0⟩)
  verifyAuthenticationResponse _ _ _ := .ok (some 1)

/-- The response of the client that has the credential. -/
def sampleResponse (credentialId challenge : String) : Response :=
  ⟨some credentialId, none, some challenge, none, credentialId⟩

def emptyState : State := ⟨∅, ∅, ∅, []⟩

/-- User 1 rebinds a credential without a row on device 2. -/
def orphanCalls : List Call :=
  [.beginRebind 0 1 "c" 1, .finishRebind 1 1 2 (sampleResponse "B" "c") none 3]

/-- Before that, the device was enrolled with another credential. -/
def mixedCalls : List Call :=
  [.beginRegistration 0 1 "r" 0,
    .finishRegistration 1 1 2 (sampleResponse "A" "r") none 4] ++ orphanCalls

/-- The rows after calls from the empty state. -/
def rowsAfter (calls : List Call) : List (Uuid × String × List UInt8 × Bool) :=
  (serially (handle sampleEnv) emptyState calls).2.enrollments.entries.map fun e =>
    (e.1, e.2.credentialId, e.2.publicKey, e.2.disabledAt.isNone)

example : rowsAfter mixedCalls = [(4, "B", [7], true)] := by decide

/-- A registered pair: some verified registration of the user delivered both together. -/
def Delivered (env : Env) (tr : List (Step State Call)) (row : BiometricEnrollment) : Prop :=
  ∃ x ∈ tr, ∃ now deviceId response requestOrigin newId info,
    x.call = .finishRegistration now row.userId deviceId response requestOrigin newId ∧
      Registers env now x.pre row.userId response requestOrigin info ∧
      (row.credentialId, row.publicKey) = (info.credentialID, info.credentialPublicKey)

/-- The call is a registration. -/
def Call.isRegistration : Call → Bool
  | .finishRegistration .. => true
  | _ => false

/-- An orphan's row is enabled without a key, and nothing has been registered. -/
theorem orphan_enabled : ¬ ∀ (env : Env) (s₀ s : State) (tr : List (Step State Call)),
    s₀.enrollments = ∅ → Serial (handle env) s₀ tr s → ∀ id row,
      s.enrollments.lookup id = some row → row.disabledAt = none → Delivered env tr row := by
  intro h
  have hrow : (serially (handle sampleEnv) emptyState orphanCalls).2.enrollments.lookup 3 =
      some ⟨1, 2, "B", [], 0, [], none, none⟩ := by decide
  obtain ⟨x, hx, _, _, _, _, _, _, hcall, -⟩ := h sampleEnv emptyState _ _ rfl
    (serially_serial (handle sampleEnv) orphanCalls) 3 _ hrow rfl
  have hnone : ∀ x ∈ (serially (handle sampleEnv) emptyState orphanCalls).1,
      x.call.isRegistration = false := by
    have hcalls : (serially (handle sampleEnv) emptyState orphanCalls).1.map Step.call =
        orphanCalls.reverse := by decide
    intro x hx
    have hmem : x.call ∈ orphanCalls.reverse := by
      rw [← hcalls]
      exact List.mem_map_of_mem hx
    revert hmem
    generalize x.call = c
    revert c
    decide
  have hreg := hnone x hx
  rw [hcall] at hreg
  cases hreg

/-- The run that adopts an orphan, at the device of another passkey. -/
theorem pairs_written_mixed :
    LastWritten sampleEnv (serially (handle sampleEnv) emptyState mixedCalls).1 4
      ⟨1, 2, "B", [7], 0, [], some 1, none⟩ :=
  (pairs_written rfl (serially_serial (handle sampleEnv) mixedCalls)).2 4 _ (by decide)

/-! ## When a ceremony succeeds -/

/-- A call that presents a credential for a device, verified; `id` is drawn for a new row. -/
inductive Presents (env : Env) (s : State) :
    Call → (userId deviceId : Uuid) → (credentialId : String) → (id : Uuid) → Prop
  | registration {now : Instant} {userId deviceId id : Uuid} {response : Response}
      {requestOrigin : Option String} {info : RegistrationInfo}
      (h : Registers env now s userId response requestOrigin info) :
      Presents env s (.finishRegistration now userId deviceId response requestOrigin id) userId
        deviceId info.credentialID id
  | rebind {now : Instant} {userId deviceId id : Uuid} {response : Response}
      {requestOrigin : Option String} {credentialId : String}
      (h : Rebinds env now s userId response requestOrigin credentialId) :
      Presents env s (.finishRebind now userId deviceId response requestOrigin id) userId
        deviceId credentialId id

section Enrolment

variable (t : Table Uuid BiometricEnrollment) (userId deviceId : Uuid) (credentialId : String)

/-- The user has one row for the device, and it holds the credential. -/
def Enrolled : Prop :=
  ∃ id row, t.lookup id = some row ∧ row.userId = userId ∧ row.deviceId = deviceId ∧
    row.credentialId = credentialId ∧ ∀ id' row', t.lookup id' = some row' →
      row'.userId = userId → row'.deviceId = deviceId → id' = id

/-- The credential is enrolled for another device of the user, and the device has a row too. -/
def Elsewhere : Prop :=
  ∃ id row id' row', t.lookup id = some row ∧ row.credentialId = credentialId ∧
    row.deviceId ≠ deviceId ∧ t.lookup id' = some row' ∧ row'.userId = userId ∧
    row'.deviceId = deviceId

end Enrolment

section Writes

variable {t : Table Uuid BiometricEnrollment} {userId deviceId id : Uuid} {credentialId : String}
  {s' : State} {row : BiometricEnrollment}

/-- The row presents the credential for the device. -/
structure BiometricEnrollment.Is (row : BiometricEnrollment) (userId deviceId : Uuid)
    (credentialId : String) : Prop where
  user : row.userId = userId
  device : row.deviceId = deviceId
  credential : row.credentialId = credentialId

/-- Whatever row for the device is stored, it is the only one. -/
theorem enrolled_store (hrow : row.Is userId deviceId credentialId)
    (hstore : s.store id row = .ok s') : Enrolled s'.enrollments userId deviceId credentialId := by
  obtain ⟨hfree, rfl⟩ := store_eq_ok.1 hstore
  refine ⟨id, row, AList.lookup_insert _, hrow.user, hrow.device, hrow.credential, ?_⟩
  intro id' other hother huser hdevice
  by_contra hne
  rw [AList.lookup_insert_ne hne] at hother
  apply (clashes_eq_false.1 (hfree id' other hother hne)).2
  rw [huser, hdevice, hrow.user, hrow.device]

/-- The row of the credential moves to the device, unless the device has another row. -/
theorem store_credential (hkeys : Keys s.enrollments) {old : BiometricEnrollment}
    (hold : s.enrollments.lookup id = some old) (hcred : old.credentialId = credentialId)
    (huser : old.userId = userId) (hrow : row.Is userId deviceId credentialId) :
    (∃ s', s.store id row = .ok s') ↔ ¬ Elsewhere s.enrollments userId deviceId credentialId := by
  constructor
  · rintro ⟨s', hstore⟩ ⟨k, holder, k', other, hk, hholder, hdevice, hk', huser', hdevice'⟩
    obtain rfl : k = id := hkeys.credential _ _ _ _ hk hold (hholder.trans hcred.symm)
    obtain rfl := Option.some.inj (hk.symm.trans hold)
    have hne : k' ≠ k := by
      rintro rfl
      obtain rfl := Option.some.inj (hk'.symm.trans hk)
      exact hdevice hdevice'
    apply (clashes_eq_false.1 ((store_eq_ok.1 hstore).1 k' other hk' hne)).2
    rw [huser', hdevice', hrow.user, hrow.device]
  · intro helsewhere
    refine ⟨_, store_eq_ok.2 ⟨fun id' other hother hne => clashes_eq_false.2 ⟨?_, ?_⟩, rfl⟩⟩
    · intro heq
      rw [hrow.credential] at heq
      exact hne (hkeys.credential _ _ _ _ hother hold (heq.trans hcred.symm))
    · intro heq
      obtain ⟨huser', hdevice'⟩ := Prod.mk.inj heq
      rw [hrow.user] at huser'
      rw [hrow.device] at hdevice'
      by_cases hdevice : old.deviceId = deviceId
      · refine hne (hkeys.device _ _ _ _ hother hold (Prod.ext_iff.2 ⟨?_, ?_⟩))
        · exact huser'.trans huser.symm
        · exact hdevice'.trans hdevice.symm
      · exact helsewhere ⟨id, old, id', other, hold, hcred, hdevice, hother, huser', hdevice'⟩

/-- Without a row of the credential, the row of the device is written, or a new one. -/
theorem upsert_enrols (hkeys : Keys s.enrollments)
    (hnone : s.findCredential credentialId = none) (hfresh : s.enrollments.lookup id = none)
    {update : BiometricEnrollment → BiometricEnrollment} {create : BiometricEnrollment}
    (hupdate : ∀ row, row.userId = userId → row.deviceId = deviceId →
      (update row).Is userId deviceId credentialId)
    (hcreate : create.Is userId deviceId credentialId) :
    ∃ s', s.upsert userId deviceId update id create = .ok s' ∧
      Enrolled s'.enrollments userId deviceId credentialId := by
  cases hfound : s.findDevice userId deviceId with
  | some found =>
    obtain ⟨k, row⟩ := found
    obtain ⟨hrow, huser, hdevice⟩ := findDevice_some hfound
    have his := hupdate row huser hdevice
    have hfree : Free s.enrollments k (update row) := by
      refine fun id' other hother hne => clashes_eq_false.2 ⟨?_, ?_⟩
      · rw [his.credential]
        exact findCredential_none hnone hother
      · rw [his.user, his.device]
        exact fun heq => hne (hkeys.device _ _ _ _ hother hrow
          (heq.trans (Prod.ext_iff.2 ⟨huser.symm, hdevice.symm⟩)))
    have hstore := store_eq_ok.2 ⟨hfree, rfl⟩
    exact ⟨_, upsert_eq_ok.2 (.inl ⟨k, row, hfound, hstore⟩), enrolled_store his hstore⟩
  | none =>
    have hfree : Free s.enrollments id create := by
      refine fun id' other hother _ => clashes_eq_false.2 ⟨?_, ?_⟩
      · rw [hcreate.credential]
        exact findCredential_none hnone hother
      · rw [hcreate.user, hcreate.device]
        exact fun heq => findDevice_none hfound hother (Prod.mk.inj heq).1 (Prod.mk.inj heq).2
    have hstore := store_eq_ok.2 ⟨hfree, rfl⟩
    exact ⟨_, upsert_eq_ok.2 (.inr ⟨hfound, hfresh, hstore⟩), enrolled_store hcreate hstore⟩

/-- The outcome of a write that stores a row for the device. -/
theorem outcome_enrolled {r : Except Error State} {p : Prop}
    (hr : (∃ s', r = .ok s') ↔ p)
    (henrolled : ∀ s', r = .ok s' → Enrolled s'.enrollments userId deviceId credentialId) :
    Outcome (fun r s' => (r = .ok () ∧ Enrolled s'.enrollments userId deviceId credentialId) ↔ p)
      s r := by
  cases r with
  | ok s' => exact fun _ => ⟨fun _ => hr.1 ⟨s', rfl⟩, fun _ => ⟨rfl, henrolled s' rfl⟩⟩
  | error e =>
    refine ⟨fun h => ?_, fun hp => ?_⟩
    · cases h.1
    · obtain ⟨s', hs'⟩ := hr.2 hp
      cases hs'

/-- The write of a credential that has a row. -/
theorem outcome_update (hkeys : Keys s.enrollments) {old : BiometricEnrollment}
    (hold : s.findCredential credentialId = some (id, old)) (huser : old.userId = userId)
    {f : BiometricEnrollment → BiometricEnrollment} {challenges : Table Uuid BiometricChallenge}
    (hf : (f old).Is userId deviceId credentialId) :
    Outcome (fun r s' => (r = .ok () ∧ Enrolled s'.enrollments userId deviceId credentialId) ↔
      ¬ Elsewhere s.enrollments userId deviceId credentialId) s
      (State.update { s with challenges } id f) := by
  obtain ⟨hrow, hcred⟩ := findCredential_some hold
  have hupdate : State.update { s with challenges } id f =
      State.store { s with challenges } id (f old) := by
    unfold State.update
    dsimp only
    rw [hrow]
  rw [hupdate]
  exact outcome_enrolled (store_credential (s := { s with challenges }) hkeys hrow hcred huser hf)
    fun s' hstore => enrolled_store hf hstore

/-- The write of a credential without a row. -/
theorem outcome_upsert (hkeys : Keys s.enrollments)
    (hnone : s.findCredential credentialId = none) (hfresh : s.enrollments.lookup id = none)
    {update : BiometricEnrollment → BiometricEnrollment} {create : BiometricEnrollment}
    {challenges : Table Uuid BiometricChallenge}
    (hupdate : ∀ row, row.userId = userId → row.deviceId = deviceId →
      (update row).Is userId deviceId credentialId)
    (hcreate : create.Is userId deviceId credentialId) :
    Outcome (fun r s' => (r = .ok () ∧ Enrolled s'.enrollments userId deviceId credentialId) ↔
      ¬ Elsewhere s.enrollments userId deviceId credentialId) s
      (State.upsert { s with challenges } userId deviceId update id create) := by
  obtain ⟨s', hs', henrolled⟩ := upsert_enrols (s := { s with challenges }) hkeys hnone hfresh
    hupdate hcreate
  have hnowhere : ¬ Elsewhere s.enrollments userId deviceId credentialId := by
    rintro ⟨k, row, -, -, hrow, hcred, -⟩
    exact findCredential_none hnone hrow hcred
  refine outcome_enrolled ⟨fun _ => hnowhere, fun _ => ⟨s', hs'⟩⟩ fun s₁ hs₁ => ?_
  rw [hs'] at hs₁
  cases hs₁
  exact henrolled

theorem keys_upsert {update : BiometricEnrollment → BiometricEnrollment}
    {create : BiometricEnrollment} (hkeys : Keys s.enrollments)
    (h : s.upsert userId deviceId update id create = .ok s') : Keys s'.enrollments := by
  rcases upsert_eq_ok.1 h with ⟨_, _, -, hstore⟩ | ⟨-, -, hstore⟩
  · exact hkeys.store hstore
  · exact hkeys.store hstore

end Writes

/-- The unique keys of the tables that sequences of calls reach. -/
theorem keys_kept (hstart : Keys s₀.enrollments) (hrun : Serial (handle env) s₀ tr s) :
    Keys s.enrollments := by
  induction hrun with
  | start => exact hstart
  | @call tr s c _ hkeys =>
    have houtcome : ∀ {r : Except Error State}, (∀ s', r = .ok s' → Keys s'.enrollments) →
        Outcome (fun _ s' => Keys s'.enrollments) s r := by
      intro r hr
      cases r with
      | ok s' => exact fun _ => hr s' rfl
      | error e => exact hkeys
    by_cases hc : c.writesCredentials = false
    · exact ((handle_columns env hc).run .refl (fun h h' => h.trans h') s).keys hkeys
    cases c with
    | finishRegistration =>
      refine ensures_map (Q := fun _ s' => Keys s'.enrollments)
        (finishRegistration_ensures (fun info challenges _ _ => houtcome fun s' hs' => ?_)
          fun _ _ => hkeys)
      cases hfound : s.findCredential info.credentialID with
      | some found =>
        rw [hfound] at hs'
        obtain ⟨row, -, hstore⟩ := update_eq_ok.1 hs'
        exact Keys.store (s := { s with challenges }) hkeys hstore
      | none =>
        rw [hfound] at hs'
        exact keys_upsert (s := { s with challenges }) hkeys hs'
    | finishRebind =>
      refine ensures_map (Q := fun _ s' => Keys s'.enrollments) (finishRebind_ensures
        (fun credentialId id' row n challenges _ _ _ => houtcome fun s' hs' => ?_)
        (fun credentialId challenges _ _ => houtcome fun s' hs' => ?_) fun _ _ => hkeys)
      · obtain ⟨row, -, hstore⟩ := update_eq_ok.1 hs'
        exact Keys.store (s := { s with challenges }) hkeys hstore
      · exact keys_upsert (s := { s with challenges }) hkeys hs'
    | _ => simp [Call.writesCredentials] at hc

/-- **When a ceremony succeeds.** A verified registration or rebind of a credential that is nobody
else's leaves the user with one row for the device, with that credential, if and only if the credential
is not enrolled for another device while this one has a row. -/
theorem enrolment_commits {c : Call} {userId deviceId id : Uuid} {credentialId : String}
    (hkeys : Keys s.enrollments) (hpresents : Presents env s c userId deviceId credentialId id)
    (hmine : ∀ k row, s.enrollments.lookup k = some row → row.credentialId = credentialId →
      row.userId = userId)
    (hfresh : s.enrollments.lookup id = none) :
    (((handle env c).run s).1 = .ok .done ∧
      Enrolled ((handle env c).run s).2.enrollments userId deviceId credentialId) ↔
      ¬ Elsewhere s.enrollments userId deviceId credentialId := by
  have hmine' : Mine s userId credentialId := fun k row hrow =>
    hmine k row (findCredential_some hrow).1 (findCredential_some hrow).2
  -- what is asked of the answer of the call is asked of the outcome of its program
  have hdone : ∀ {p : Handler Unit}, p.Ensures s (fun r s' => (r = .ok () ∧
      Enrolled s'.enrollments userId deviceId credentialId) ↔
        ¬ Elsewhere s.enrollments userId deviceId credentialId) →
      (p >>= fun _ => (pure .done : Handler Answer)).Ensures s fun r s' => (r = .ok .done ∧
        Enrolled s'.enrollments userId deviceId credentialId) ↔
          ¬ Elsewhere s.enrollments userId deviceId credentialId := by
    intro p hp
    refine ensures_map (hp.imp fun r s' h => ?_)
    rw [← h]
    cases r <;> simp [Except.map]
  cases hpresents with
  | @registration now _ _ _ response requestOrigin info hreg =>
    refine hdone (finishRegistration_ensures (fun info' challenges hreg' _ => ?_) fun _ h =>
      absurd hmine' (h _ hreg))
    obtain rfl : info' = info := hreg'.unique hreg
    cases hfound : s.findCredential info'.credentialID with
    | some found =>
      have huser : found.2.userId = userId := hmine' _ _ hfound
      exact outcome_update hkeys hfound huser ⟨huser, rfl, rfl⟩
    | none =>
      exact outcome_upsert hkeys hfound hfresh (fun row huser _ => ⟨huser, rfl, rfl⟩)
        ⟨rfl, rfl, rfl⟩
  | @rebind now _ _ _ response requestOrigin _ hreb =>
    refine hdone (finishRebind_ensures (fun credentialId' id' row n challenges hreb' huser hfound => ?_)
      (fun credentialId' challenges hreb' hfound => ?_) fun _ h => absurd hmine' (h _ hreb))
    · obtain rfl : credentialId' = credentialId := Option.some.inj (hreb'.raw.symm.trans hreb.raw)
      exact outcome_update hkeys hfound huser ⟨huser, rfl, (findCredential_some hfound).2⟩
    · obtain rfl : credentialId' = credentialId := Option.some.inj (hreb'.raw.symm.trans hreb.raw)
      exact outcome_upsert hkeys hfound hfresh (fun row huser hdevice => ⟨huser, hdevice, rfl⟩)
        ⟨rfl, rfl, rfl⟩

/-- User 1 registers `A` on device 1 and `B` on device 2, and is about to register `A` on device 2. -/
def twoDevices : List Call :=
  [.beginRegistration 0 1 "a" 0, .finishRegistration 0 1 1 (sampleResponse "A" "a") none 10,
    .beginRegistration 0 1 "b" 1, .finishRegistration 0 1 2 (sampleResponse "B" "b") none 11,
    .beginRegistration 0 1 "c" 2]

def twoDevicesState : State := (serially (handle sampleEnv) emptyState twoDevices).2

theorem twoDevices_registers (credentialId : String) :
    Registers sampleEnv 0 twoDevicesState 1 (sampleResponse credentialId "c") none
      ⟨credentialId, [7], 0⟩ :=
  ⟨2, ⟨1, "c", .registration, challengeTtlMs, none⟩, ⟨rfl, by decide⟩, rfl⟩

/-- A credential from another device collides with the row of this one. -/
theorem enrolment_collides : ¬ ∀ (env : Env) (s₀ s : State) (tr : List (Step State Call)) (c : Call)
    (userId deviceId id : Uuid) (credentialId : String),
    s₀.enrollments = ∅ → Serial (handle env) s₀ tr s →
    Presents env s c userId deviceId credentialId id →
    (∀ k row, s.enrollments.lookup k = some row → row.credentialId = credentialId →
      row.userId = userId) →
    s.enrollments.lookup id = none →
    ((handle env c).run s).1 = .ok .done ∧
      Enrolled ((handle env c).run s).2.enrollments userId deviceId credentialId := by
  intro h
  have hmine : ∀ k row, twoDevicesState.enrollments.lookup k = some row →
      row.credentialId = "A" → row.userId = 1 := by
    intro k row hrow _
    have hall : ∀ e ∈ twoDevicesState.enrollments.entries, e.2.userId = 1 := by decide
    exact hall _ (Table.mem_entries_iff.2 hrow)
  have hok := h sampleEnv emptyState twoDevicesState _ _ 1 2 12 "A" rfl
    (serially_serial (handle sampleEnv) twoDevices) (.registration (twoDevices_registers "A")) hmine
    (by decide)
  have hrun : ((handle sampleEnv (.finishRegistration 0 1 2 (sampleResponse "A" "c") none 12)).run
      twoDevicesState).1 = .error .uniqueViolation := by decide
  rw [hrun] at hok
  cases hok.1

/-- A new credential of the second device is enrolled. -/
theorem enrolment_commits_second :
    ((handle sampleEnv (.finishRegistration 0 1 2 (sampleResponse "C" "c") none 12)).run
      twoDevicesState).1 = .ok .done ∧
    Enrolled ((handle sampleEnv (.finishRegistration 0 1 2 (sampleResponse "C" "c") none 12)).run
      twoDevicesState).2.enrollments 1 2 "C" := by
  have hnobody : ∀ k row, twoDevicesState.enrollments.lookup k = some row →
      row.credentialId ≠ "C" := by
    intro k row hrow
    have hall : ∀ e ∈ twoDevicesState.enrollments.entries, e.2.credentialId ≠ "C" := by decide
    exact hall _ (Table.mem_entries_iff.2 hrow)
  have hstart : Keys emptyState.enrollments :=
    ⟨(fun _ _ _ _ h _ _ => by cases h), (fun _ _ _ _ h _ _ => by cases h)⟩
  have hkeys : Keys twoDevicesState.enrollments :=
    keys_kept hstart (serially_serial (handle sampleEnv) twoDevices)
  refine (enrolment_commits hkeys (.registration (twoDevices_registers "C"))
    (fun k row hrow hcred => absurd hcred (hnobody k row hrow)) (by decide)).2 ?_
  rintro ⟨k, row, -, -, hrow, hcred, -⟩
  exact hnobody k row hrow hcred

end BankDemo.Biometric
