import BankDemo.Signup.Calls

/-!
# What the steps of a sign-up do

A column of a session that is filled stays filled, and its e-mail address stays: a row extends all
its earlier versions (`Extends`). A step decides by the stage of the copy it has, which is such a
version, and writes a stage for which the columns are due that it fills itself or that were due for
the copy (`Write`). `Did` says what an action of a call does to the sessions, the users and the KYC
records, and `handle_does` that every action of every handler does this.
-/

namespace BankDemo.Signup

/-! ## Columns -/

/-- The columns that a stage may ask for. -/
inductive Column
  | verifiedAt | dob | street | city | state | zip | cardChoice | passwordHash | ssnHash
  | ssnEncrypted
  deriving DecidableEq

/-- The stage from which on a column is due. -/
def Column.due : Column → SignupStage
  | .verifiedAt => .verified
  | .dob => .dobCollected
  | .street | .city | .state | .zip | .cardChoice => .addressCollected
  | .passwordHash => .passwordSet
  | .ssnHash | .ssnEncrypted => .ssnCollected

theorem not_due_contactCollected (c : Column) : ¬ AtLeast c.due .contactCollected := by
  cases c <;> decide

namespace SignupSession

/-- The column is set. -/
def filled (s : SignupSession) : Column → Bool
  | .verifiedAt => s.verifiedAt.isSome
  | .dob => s.dob.isSome
  | .street => s.street.isSome
  | .city => s.city.isSome
  | .state => s.state.isSome
  | .zip => s.zip.isSome
  | .cardChoice => s.cardChoice.isSome
  | .passwordHash => s.passwordHash.isSome
  | .ssnHash => s.ssnHash.isSome
  | .ssnEncrypted => s.ssnEncrypted.isSome

/-- The columns that are due at the stage of the row are set. -/
def Sound (s : SignupSession) : Prop := ∀ c : Column, AtLeast c.due s.stage → s.filled c = true

/-- The row has the e-mail address of an earlier version, and the columns that were set there. -/
structure Extends (s old : SignupSession) : Prop where
  email_eq : s.email = old.email
  filled : ∀ c, old.filled c = true → s.filled c = true

theorem Extends.refl (s : SignupSession) : s.Extends s := ⟨rfl, fun _ h => h⟩

theorem Extends.trans {s₁ s₂ s₃ : SignupSession} (h : s₁.Extends s₂) (h' : s₂.Extends s₃) :
    s₁.Extends s₃ :=
  ⟨h.email_eq.trans h'.email_eq, fun c hc => h.filled c (h'.filled c hc)⟩

end SignupSession

/-- A write by a step that holds a copy of the row: it clears nothing that a stage may ask for, and
what is due at the stage it writes is set by it or was due at the stage of the copy. -/
structure Write (copy : SignupSession) (f : SignupSession → SignupSession) : Prop where
  email_eq : ∀ row, (f row).email = row.email
  filled : ∀ row c, row.filled c = true → (f row).filled c = true
  due : ∀ row c, AtLeast c.due (f row).stage → (f row).filled c = true ∨ AtLeast c.due copy.stage

theorem Write.extends {copy : SignupSession} {f : SignupSession → SignupSession} (h : Write copy f)
    (row : SignupSession) : (f row).Extends row :=
  ⟨h.email_eq row, h.filled row⟩

/-- A write keeps a row sound, if the copy was a sound earlier version of it. -/
theorem Write.sound {copy row : SignupSession} {f : SignupSession → SignupSession}
    (h : Write copy f) (hcopy : copy.Sound) (hrow : row.Extends copy) : (f row).Sound := by
  intro c hc
  rcases h.due row c hc with hset | hdue
  · exact hset
  · exact h.filled row c (hrow.filled c (hcopy c hdue))

/-- The write of a stage, with the columns it sets of those a stage may ask for. -/
structure Fills (sets : List Column) (next : SignupStage) (f : SignupSession → SignupSession) :
    Prop where
  stage_eq : ∀ row, (f row).stage = next
  email_eq : ∀ row, (f row).email = row.email
  resolved_eq : ∀ row, (f row).resolvedUserId = row.resolvedUserId
  filled : ∀ row c, row.filled c = true → (f row).filled c = true
  sets : ∀ row, ∀ c ∈ sets, (f row).filled c = true

/-- What is due at `next` is set, or due at the stage `required`. -/
def Covers (sets : List Column) (next required : SignupStage) : Prop :=
  ∀ c : Column, AtLeast c.due next → c ∈ sets ∨ AtLeast c.due required

theorem Covers.trans {sets : List Column} {next required stage : SignupStage}
    (h : Covers sets next required) (hstage : AtLeast required stage) : Covers sets next stage :=
  fun c hc => (h c hc).imp_right fun hdue => hdue.trans hstage

theorem Fills.write {copy : SignupSession} {f : SignupSession → SignupSession}
    {next : SignupStage} {sets : List Column} (h : Fills sets next f)
    (hcovers : Covers sets next copy.stage) : Write copy f := by
  refine ⟨h.email_eq, h.filled, fun row c hc => ?_⟩
  rw [h.stage_eq] at hc
  exact (hcovers c hc).imp_left fun hset => h.sets row c hset

/-! ## Actions -/

/-- The users and the KYC records are as before. -/
structure SameUsers (w w' : Registry) : Prop where
  users : w'.db.users = w.db.users
  kycRecords : w'.db.kycRecords = w.db.kycRecords

/-- The sessions, the users and the KYC records are as before. -/
structure Aside (w w' : Registry) : Prop extends SameUsers w w' where
  sessions : w'.db.signupSessions = w.db.signupSessions

theorem aside_refl (w : Registry) : Aside w w := ⟨⟨rfl, rfl⟩, rfl⟩

/-- The copy was read by an earlier action. -/
def Read (own : List (Registry × Registry)) (id : Uuid) (copy : SignupSession) : Prop :=
  ∃ w, (w, w) ∈ own ∧ w.db.signupSessions.lookup id = some copy

theorem Read.mono {own l : List (Registry × Registry)} {id : Uuid} {copy : SignupSession}
    (h : Read own id copy) : Read (l ++ own) id copy := by
  obtain ⟨w, hw, hcopy⟩ := h
  exact ⟨w, List.mem_append_right l hw, hcopy⟩

/-- No action so far has made a session. -/
def NoneMade (own : List (Registry × Registry)) : Prop :=
  ∀ y ∈ own, ∀ id, y.1.db.signupSessions.lookup id = none → y.2.db.signupSessions.lookup id = none

/-- The completion of a session by a copy, with the user and the KYC record it makes. -/
structure Completion (id userId kycId : Uuid) (copy : SignupSession) (w w' : Registry) : Prop where
  copy_stage : copy.stage = .docsSubmitted
  user_new : w.db.users.lookup userId = none
  kyc_new : w.db.kycRecords.lookup kycId = none
  /-- The user has the contacts of the copy, with an e-mail address that no user had. -/
  user : ∃ user : User, copy.email = some user.email ∧ user.phoneE164 = copy.phoneE164 ∧
    w'.db.users = w.db.users.insert userId user ∧
    ∀ u row, w.db.users.lookup u = some row → row.email ≠ user.email
  /-- The KYC record is of the user, who had none. -/
  kyc : ∃ record : KycRecord, record.userId = userId ∧
    w'.db.kycRecords = w.db.kycRecords.insert kycId record ∧
    ∀ k r, w.db.kycRecords.lookup k = some r → r.userId ≠ userId
  sessions : Table.Updated id (resolved userId) w.db.signupSessions w'.db.signupSessions
  verifications : w'.db.verifications = w.db.verifications
  sent : w'.sent = w.sent

/-- What an action can do, after the call's own actions before it. -/
inductive Did (env : Env) : Call → List (Registry × Registry) → Prop
  | aside {c : Call} {w w' : Registry} {own : List (Registry × Registry)} (h : Aside w w') :
      Did env c ((w, w') :: own)
  | began {now : Instant} {sessionId : Uuid} {input : BeginSignupDto} {w w' : Registry}
      {own : List (Registry × Registry)} (husers : SameUsers w w')
      (hown : NoneMade own)
      (hsessions : Table.Created sessionId (newSession env now input) w.db.signupSessions
        w'.db.signupSessions) : Did env (.begin now sessionId input) ((w, w') :: own)
  | dropped {c : Call} {w w' : Registry} {own : List (Registry × Registry)}
      (husers : SameUsers w w')
      (hsessions : ∀ s row, w'.db.signupSessions.lookup s = some row →
        w.db.signupSessions.lookup s = some row) : Did env c ((w, w') :: own)
  | wrote {c : Call} {id : Uuid} {copy : SignupSession} {f : SignupSession → SignupSession}
      {w w' : Registry} {own : List (Registry × Registry)} (husers : SameUsers w w')
      (hread : Read own id copy) (hwrite : Write copy f)
      (hresolved : ∀ row, (f row).resolvedUserId = row.resolvedUserId)
      (hstage : ∀ row, (f row).stage ≠ .completed)
      (hsessions : Table.Updated id f w.db.signupSessions w'.db.signupSessions) :
      Did env c ((w, w') :: own)
  | completed {now : Instant} {id userId kycId : Uuid} {copy : SignupSession} {w w' : Registry}
      {own : List (Registry × Registry)} (hread : Read own id copy)
      (h : Completion id userId kycId copy w w') :
      Did env (.complete now id userId kycId) ((w, w') :: own)
  | users {c : Call} {w w' : Registry} {own : List (Registry × Registry)}
      (hc : c.completing = none) (hkyc : w'.db.kycRecords = w.db.kycRecords)
      (hsessions : w'.db.signupSessions = w.db.signupSessions) : Did env c ((w, w') :: own)
  | deleted {id : Uuid} {w w' : Registry} {own : List (Registry × Registry)}
      (hthere : (w.db.users.lookup id).isSome) (hgone : w'.db.users.lookup id = none)
      (hsessions : ∀ s row, w'.db.signupSessions.lookup s = some row →
        w.db.signupSessions.lookup s = some row) : Did env (.deleteUser id) ((w, w') :: own)

theorem write_resolved {copy : SignupSession} (h : copy.stage = .docsSubmitted) (userId : Uuid) :
    Write copy (resolved userId) := by
  refine ⟨fun _ => rfl, fun row c hc => ?_, fun row c _ => .inr ?_⟩
  · cases c <;> exact hc
  · rw [h]
    cases c <;> decide

/-- Where a row after an update comes from. -/
theorem updated_origin {id a : Uuid} {f : SignupSession → SignupSession}
    {t t' : Table Uuid SignupSession} (h : Table.Updated id f t t') {s' : SignupSession}
    (hs' : t'.lookup a = some s') :
    ∃ s, t.lookup a = some s ∧ (s' = s ∨ (a = id ∧ s' = f s)) := by
  rw [h.lookup] at hs'
  split at hs'
  · rename_i hid
    obtain ⟨s, hs, rfl⟩ := Option.map_eq_some_iff.1 hs'
    exact ⟨s, hs, .inr ⟨hid, rfl⟩⟩
  · exact ⟨s', hs', .inl rfl⟩

/-- Where a session after an action comes from: it is new, it was there, or it was there and the
action wrote to it by a copy that the call had read. -/
theorem Did.session {env : Env} {c : Call} {w w' : Registry} {own : List (Registry × Registry)}
    (h : Did env c ((w, w') :: own)) {id : Uuid} {s' : SignupSession}
    (hs' : w'.db.signupSessions.lookup id = some s') :
    (∃ now input, c = .begin now id input ∧ NoneMade own ∧
      w.db.signupSessions.lookup id = none ∧ s' = newSession env now input) ∨
    ∃ s, w.db.signupSessions.lookup id = some s ∧
      (s' = s ∨ ∃ copy f, Read own id copy ∧ Write copy f ∧ s' = f s) := by
  cases h with
  | aside h =>
    rw [h.sessions] at hs'
    exact .inr ⟨s', hs', .inl rfl⟩
  | @began now sessionId input _ _ _ husers hown hsessions =>
    rw [hsessions.lookup] at hs'
    split at hs'
    · rename_i hid
      subst hid
      obtain rfl := Option.some.inj hs'
      exact .inl ⟨now, input, rfl, hown, hsessions.1, rfl⟩
    · exact .inr ⟨s', hs', .inl rfl⟩
  | dropped husers hsessions => exact .inr ⟨s', hsessions _ _ hs', .inl rfl⟩
  | wrote husers hread hwrite hresolved hstage hsessions =>
    obtain ⟨s, hs, rfl | ⟨rfl, rfl⟩⟩ := updated_origin hsessions hs'
    · exact .inr ⟨s', hs, .inl rfl⟩
    · exact .inr ⟨s, hs, .inr ⟨_, _, hread, hwrite, rfl⟩⟩
  | completed hread h =>
    obtain ⟨s, hs, rfl | ⟨rfl, rfl⟩⟩ := updated_origin h.sessions hs'
    · exact .inr ⟨s', hs, .inl rfl⟩
    · exact .inr ⟨s, hs, .inr ⟨_, _, hread, write_resolved h.copy_stage _, rfl⟩⟩
  | users hc hkyc hsessions =>
    rw [hsessions] at hs'
    exact .inr ⟨s', hs', .inl rfl⟩
  | deleted hthere hgone hsessions => exact .inr ⟨s', hsessions _ _ hs', .inl rfl⟩

/-! ## Handlers -/

/-- The actions of a handler, after those in `own`, are what the call can do. -/
def Within {α : Type} (env : Env) (c : Call) (own : List (Registry × Registry)) (p : Handler α) :
    Prop :=
  p.Does (Did env c) (fun _ _ => True) own

section Rules

variable {α β : Type} {env : Env} {c : Call} {own : List (Registry × Registry)}

theorem within_pure (a : α) : Within env c own (pure a : Handler α) := trivial

theorem within_throw (e : Error) : Within env c own (throw e : Handler α) := trivial

theorem within_query {f : Db → α} {k : α → Handler β}
    (hk : ∀ w : Registry, Within env c ((w, w) :: own) (k (f w.db))) :
    Within env c own (query f >>= k) :=
  Prog.does_bind (Prog.does_read fun w => ⟨.aside (aside_refl w), hk w⟩)

theorem within_transaction {body : Tx α} {k : α → Handler β}
    (hok : ∀ (w : Registry) r, body w.db = .ok r → Did env c ((w, { w with db := r.2 }) :: own) ∧
      Within env c ((w, { w with db := r.2 }) :: own) (k r.1)) :
    Within env c own (transaction body >>= k) := by
  refine Prog.does_bind (Prog.does_attempt (fun w a w' _ hb => ?_) fun w e _ _ =>
    ⟨.aside (aside_refl w), trivial⟩)
  cases hbody : body w.db with
  | error e => simp [hbody] at hb
  | ok r =>
    simp only [hbody, Except.ok.injEq, Prod.mk.injEq] at hb
    obtain ⟨rfl, rfl⟩ := hb
    exact hok w r hbody

/-- Actions aside, then more. -/
theorem within_aside {p : Handler α} {k : α → Handler β} (hp : p.Each Aside)
    (hk : ∀ a later, Within env c (later ++ own) (k a)) : Within env c own (p >>= k) :=
  hp.does_bind (fun _ _ _ h => .aside h) (fun a later _ => hk a later) fun _ _ => trivial

theorem within_load {now : Instant} {id : Uuid} {k : SignupSession → Handler β}
    (hk : ∀ own' copy, Read own' id copy → Within env c own' (k copy)) :
    Within env c own (load now id >>= k) := by
  simp only [load, bind_assoc]
  refine within_query fun w => ?_
  cases hs : w.db.signupSessions.lookup id with
  | none => exact within_throw _
  | some s =>
    simp only
    split
    · exact within_throw _
    · split
      · exact within_throw _
      · exact hk _ s ⟨w, List.mem_cons_self, hs⟩

theorem within_require {actual required : SignupStage} {k : Unit → Handler β}
    (hk : AtLeast required actual → Within env c own (k ())) :
    Within env c own (requireStageAtLeast actual required >>= k) := by
  unfold requireStageAtLeast
  split
  · exact within_throw _
  · rename_i hlt
    exact hk (not_lt.1 hlt)

theorem updateSession_ok {id : Uuid} {f : SignupSession → SignupSession} {db : Db}
    {r : SignupSession × Db} (h : updateSession id f db = .ok r) :
    ∃ T, r.2 = { db with signupSessions := T } ∧ Table.Updated id f db.signupSessions T := by
  unfold updateSession at h
  split at h
  · cases h
  · rename_i row hrow
    split at h
    · cases h
    · cases h
      exact ⟨_, rfl, row, hrow, rfl⟩

section Steps

variable {id : Uuid} {copy : SignupSession} {S : List Column} {required next : SignupStage}
  {f : SignupSession → SignupSession} {k : SignupSession → Handler β}

/-- A write by a copy that was read, then more. -/
theorem within_update (hread : Read own id copy) (hf : Fills S next f)
    (hcovers : Covers S next copy.stage) (hopen : next ≠ .completed)
    (hk : ∀ row own', Within env c own' (k row)) :
    Within env c own (transaction (updateSession id f) >>= k) := by
  refine within_transaction fun w r hb => ⟨?_, hk _ _⟩
  obtain ⟨T, hdb, hT⟩ := updateSession_ok hb
  rw [hdb]
  exact .wrote ⟨rfl, rfl⟩ hread (hf.write hcovers) hf.resolved_eq
    (fun row => by rw [hf.stage_eq]; exact hopen) hT

theorem within_advance (hread : Read own id copy) (hf : Fills S next f)
    (hcovers : Covers S next required) (hopen : next ≠ .completed)
    (hk : ∀ row own', Within env c own' (k row)) :
    Within env c own (advance id copy required f >>= k) := by
  simp only [advance, bind_assoc]
  exact within_require fun h => within_update hread hf (hcovers.trans h) hopen hk

theorem within_markChannelChosen {k : Unit → Handler β} (hread : Read own id copy)
    (hk : ∀ a own', Within env c own' (k a)) :
    Within env c own (markChannelChosen id copy >>= k) := by
  have hf : Fills [] .channelChosen fun row => { row with stage := .channelChosen } :=
    ⟨fun _ => rfl, fun _ => rfl, fun _ => rfl, fun row c hc => by cases c <;> exact hc, by simp⟩
  have hcovers : Covers [] .channelChosen .contactCollected := fun c => by cases c <;> decide
  simp only [markChannelChosen, bind_assoc]
  refine within_require fun h => ?_
  split
  · simp only [bind_assoc, pure_bind]
    exact within_update hread hf (hcovers.trans h) (by decide) fun _ _ => hk _ _
  · exact hk _ _

theorem within_markVerified {now : Instant} {channel : VerificationChannel}
    (hread : Read own id copy) (hk : ∀ row own', Within env c own' (k row)) :
    Within env c own (markVerified id copy now channel >>= k) := by
  refine within_advance (S := [.verifiedAt]) hread ⟨fun _ => rfl, fun _ => rfl, fun _ => rfl,
    fun row c hc => ?_, by simp [SignupSession.filled]⟩ (fun c => ?_) (by decide) hk
  · cases c <;> first | rfl | exact hc
  · cases c <;> decide

theorem within_setDob {dob : Option Instant} (hread : Read own id copy)
    (hk : ∀ row own', Within env c own' (k row)) :
    Within env c own (setDob id copy dob >>= k) := by
  have hcovers : Covers [.dob] .dobCollected .verified := fun c => by cases c <;> decide
  simp only [setDob, bind_assoc]
  refine within_require fun h => ?_
  cases dob with
  | none => exact within_throw _
  | some date =>
    refine within_update hread ⟨fun _ => rfl, fun _ => rfl, fun _ => rfl, fun row c hc => ?_,
      by simp [SignupSession.filled]⟩ (hcovers.trans h) (by decide) hk
    cases c <;> first | rfl | exact hc

theorem within_setCard {cardChoice : String} (hread : Read own id copy)
    (hk : ∀ row own', Within env c own' (k row)) :
    Within env c own (setCard id copy cardChoice >>= k) := by
  refine within_advance (S := []) hread ⟨fun _ => rfl, fun _ => rfl, fun _ => rfl,
    fun row c hc => ?_, by simp⟩ (fun c => ?_) (by decide) hk
  · cases c <;> first | rfl | exact hc
  · cases c <;> decide

theorem within_setAddress {addr : AddressDto} (hread : Read own id copy)
    (hk : ∀ row own', Within env c own' (k row)) :
    Within env c own (setAddress id copy addr >>= k) := by
  refine within_advance (S := [.street, .city, .state, .zip, .cardChoice]) hread ⟨fun _ => rfl,
    fun _ => rfl, fun _ => rfl, fun row c hc => ?_, by simp [SignupSession.filled]⟩ (fun c => ?_)
    (by decide) hk
  · cases c <;> first | rfl | exact hc
  · cases c <;> decide

theorem within_setPassword {salt : ℕ} {password : String} (hread : Read own id copy)
    (hk : ∀ row own', Within env c own' (k row)) :
    Within env c own (setPassword id copy env salt password >>= k) := by
  refine within_advance (S := [.passwordHash]) hread ⟨fun _ => rfl, fun _ => rfl, fun _ => rfl,
    fun row c hc => ?_, by simp [SignupSession.filled]⟩ (fun c => ?_) (by decide) hk
  · cases c <;> first | rfl | exact hc
  · cases c <;> decide

theorem within_setDetails {d : DetailsDto} (hread : Read own id copy)
    (hk : ∀ row own', Within env c own' (k row)) :
    Within env c own (setDetails id copy d >>= k) := by
  have hcovers : Covers [] .detailsCollected .passwordSet := fun c => by cases c <;> decide
  simp only [setDetails, bind_assoc]
  refine within_require fun h => ?_
  split
  · exact within_throw _
  · refine within_update hread ⟨fun _ => rfl, fun _ => rfl, fun _ => rfl, fun row c hc => ?_,
      by simp⟩ (hcovers.trans h) (by decide) hk
    cases c <;> exact hc

theorem within_setSsn {iv : ℕ} {ssnPlain : String} (hread : Read own id copy)
    (hk : ∀ row own', Within env c own' (k row)) :
    Within env c own (setSsn id copy env iv ssnPlain >>= k) := by
  have hcovers : Covers [.ssnHash, .ssnEncrypted] .ssnCollected .detailsCollected :=
    fun c => by cases c <;> decide
  simp only [setSsn, bind_assoc]
  refine within_require fun h => ?_
  split
  · exact within_throw _
  · simp only [bind_assoc]
    refine within_query fun w => ?_
    split
    · exact within_throw _
    · refine within_update (hread.mono (l := [_])) ⟨fun _ => rfl, fun _ => rfl, fun _ => rfl,
        fun row c hc => ?_, by simp [SignupSession.filled]⟩ (hcovers.trans h) (by decide) hk
      cases c <;> first | rfl | exact hc

theorem within_markDocsSubmitted (hread : Read own id copy)
    (hk : ∀ row own', Within env c own' (k row)) :
    Within env c own (markDocsSubmitted id copy >>= k) := by
  have hcovers : Covers [] .docsSubmitted .ssnCollected := fun c => by cases c <;> decide
  simp only [markDocsSubmitted, bind_assoc]
  refine within_require fun h => within_query fun w => ?_
  split
  · exact within_throw _
  · refine within_update (hread.mono (l := [_])) ⟨fun _ => rfl, fun _ => rfl, fun _ => rfl,
      fun row c hc => ?_, by simp⟩ (hcovers.trans h) (by decide) hk
    cases c <;> exact hc

end Steps

/-! Completion -/

theorem createUser_ok {id : Uuid} {row : User} {db : Db} {r : Unit × Db}
    (h : createUser id row db = .ok r) : r.2 = { db with users := db.users.insert id row } ∧
      db.users.lookup id = none ∧ ∀ u x, db.users.lookup u = some x → x.email ≠ row.email := by
  unfold createUser at h
  split at h
  · cases h
  · rename_i hid
    split at h
    · cases h
    · rename_i hemail
      split at h
      · cases h
      · cases h
        refine ⟨rfl, by simpa using hid, fun u x hx heq => ?_⟩
        have hfree := Table.findRow_none (by simpa using hemail) hx
        simp [heq] at hfree

theorem createKycRecord_ok {id : Uuid} {row : KycRecord} {db : Db} {r : Unit × Db}
    (h : createKycRecord id row db = .ok r) :
    r.2 = { db with kycRecords := db.kycRecords.insert id row } ∧
      db.kycRecords.lookup id = none ∧
      ∀ k x, db.kycRecords.lookup k = some x → x.userId ≠ row.userId := by
  unfold createKycRecord at h
  split at h
  · cases h
  · rename_i hid
    split at h
    · cases h
    · rename_i huser
      split at h
      · cases h
      · cases h
        refine ⟨rfl, by simpa using hid, fun k x hx heq => ?_⟩
        have hfree := Table.findRow_none (by simpa using huser) hx
        simp [heq] at hfree

theorem completion_of_completeTx {id userId kycId : Uuid} {copy : SignupSession} {user : User}
    {w : Registry} {r : Uuid × Db} (hstage : copy.stage = .docsSubmitted)
    (hemail : copy.email = some user.email) (hphone : user.phoneE164 = copy.phoneE164)
    (h : completeTx id userId kycId user w.db = .ok r) : Completion id userId kycId copy w
      { w with db := r.2 } := by
  obtain ⟨_, db₁, h₁, h⟩ := Prog.body_bind_ok.1 h
  obtain ⟨_, db₂, h₂, h⟩ := Prog.body_bind_ok.1 h
  obtain ⟨_, db₃, h₃, h⟩ := Prog.body_bind_ok.1 h
  cases h₃
  obtain ⟨hdb₁, hnew, hfree⟩ := createUser_ok h₁
  obtain ⟨hdb₂, hkycNew, hkycFree⟩ := createKycRecord_ok h₂
  simp only at hdb₁ hdb₂
  subst hdb₁ hdb₂
  dsimp only at h
  split at h
  · rename_i r' hupdate
    cases h
    obtain ⟨T, hdb, hT⟩ := updateSession_ok hupdate
    rw [hdb]
    exact ⟨hstage, hnew, hkycNew, ⟨user, hemail, hphone, rfl, hfree⟩, ⟨_, rfl, rfl, hkycFree⟩, hT,
      rfl, rfl⟩
  · cases h

theorem within_resolve {now : Instant} {id userId kycId : Uuid} {copy : SignupSession} {user : User}
    {k : Uuid → Handler β} (hread : Read own id copy) (hstage : copy.stage = .docsSubmitted)
    (hemail : copy.email = some user.email) (hphone : user.phoneE164 = copy.phoneE164)
    (hk : ∀ a own', Within env (.complete now id userId kycId) own' (k a)) :
    Within env (.complete now id userId kycId) own (resolve id userId kycId user >>= k) := by
  refine Prog.does_bind (Prog.does_attempt (fun w a w' _ hb => ?_) fun w e _ _ =>
    ⟨.aside (aside_refl w), trivial⟩)
  cases hbody : completeTx id userId kycId user w.db with
  | error e => simp [hbody] at hb
  | ok r =>
    simp only [hbody, Except.ok.injEq, Prod.mk.injEq] at hb
    obtain ⟨rfl, rfl⟩ := hb
    exact ⟨.completed hread (completion_of_completeTx hstage hemail hphone hbody), hk _ _⟩

theorem within_complete {now : Instant} {id userId kycId : Uuid} {copy : SignupSession}
    {k : Uuid → Handler β} (hread : Read own id copy)
    (hk : ∀ a own', Within env (.complete now id userId kycId) own' (k a)) :
    Within env (.complete now id userId kycId) own (complete id copy userId kycId >>= k) := by
  unfold complete
  split
  · exact within_throw _
  · rename_i hstage
    split
    · rename_i email passwordHash hemail hhash
      split
      · exact within_throw _
      · simp only [bind_assoc]
        refine within_query fun w => ?_
        split
        · exact within_throw _
        · split
          · exact within_resolve (hread.mono (l := [_])) (not_not.1 hstage) hemail rfl hk
          · simp only [bind_assoc]
            refine within_query fun w' => ?_
            split
            · exact within_throw _
            · exact within_resolve (hread.mono (l := [_, _])) (not_not.1 hstage) hemail rfl hk
    · exact within_throw _

/-! Beginning -/

theorem createSession_ok {id : Uuid} {row : SignupSession} {db : Db} {r : SignupSession × Db}
    (h : createSession id row db = .ok r) :
    ∃ T, r.2 = { db with signupSessions := T } ∧ Table.Created id row db.signupSessions T := by
  unfold createSession at h
  split at h
  · cases h
  · rename_i hclash
    cases h
    simp only [Bool.or_eq_true, not_or, Bool.not_eq_true, Option.isSome_eq_false_iff,
      Option.isNone_iff_eq_none] at hclash
    exact ⟨_, rfl, hclash.1, rfl⟩

theorem dropSession_ok {id : Uuid} {w : Registry} {r : Unit × Db} (h : dropSession id w.db = .ok r) :
    SameUsers w { w with db := r.2 } ∧ ∀ s row, r.2.signupSessions.lookup s = some row →
      w.db.signupSessions.lookup s = some row := by
  unfold dropSession at h
  split at h
  · cases h
  · cases h
    refine ⟨⟨rfl, rfl⟩, fun s row hs => ?_⟩
    by_cases hid : s = id
    · subst hid
      rw [AList.lookup_erase] at hs
      cases hs
    · rw [AList.lookup_erase_ne hid] at hs
      exact hs

section Begin

variable {now : Instant} {sessionId : Uuid} {input : BeginSignupDto}
  {k : Uuid × SignupSession → Handler β}

theorem NoneMade.cons {w w' : Registry} (hown : NoneMade own)
    (h : ∀ s row, w'.db.signupSessions.lookup s = some row →
      w.db.signupSessions.lookup s = some row) : NoneMade ((w, w') :: own) := by
  refine List.forall_mem_cons.2 ⟨fun id hnone => ?_, hown⟩
  cases hs : w'.db.signupSessions.lookup id with
  | none => rfl
  | some row =>
    rw [h id row hs] at hnone
    cases hnone

theorem within_createSession {k : SignupSession → Handler β} (hown : NoneMade own)
    (hk : ∀ a own', Within env (.begin now sessionId input) own' (k a)) :
    Within env (.begin now sessionId input) own
      (transaction (createSession sessionId (newSession env now input)) >>= k) := by
  refine within_transaction fun w r hb => ⟨?_, hk _ _⟩
  obtain ⟨T, hdb, hT⟩ := createSession_ok hb
  rw [hdb]
  exact .began ⟨rfl, rfl⟩ hown hT

theorem within_openSession (hown : NoneMade own)
    (hk : ∀ a own', Within env (.begin now sessionId input) own' (k a)) :
    Within env (.begin now sessionId input) own (openSession env now sessionId input >>= k) := by
  simp only [openSession, bind_assoc]
  refine within_query fun w => ?_
  have hown₁ : NoneMade ((w, w) :: own) := hown.cons fun _ _ h => h
  split
  · rename_i id existing hfound
    split
    · -- a stale session goes first
      simp only [bind_assoc, pure_bind]
      refine within_transaction fun w' r hb => ?_
      obtain ⟨husers, hsessions⟩ := dropSession_ok hb
      exact ⟨.dropped husers hsessions,
        within_createSession (hown₁.cons hsessions) fun _ _ => hk _ _⟩
    · simp only [bind_assoc, pure_bind]
      have hread : Read ((w, w) :: own) id existing :=
        ⟨w, List.mem_cons_self, (Table.findRow_some hfound).1⟩
      refine within_update (S := []) hread ⟨fun _ => rfl, fun _ => rfl, fun _ => rfl,
        fun row c hc => ?_, by simp⟩ (fun c hc => (not_due_contactCollected c hc).elim) (by decide)
        fun _ _ => hk _ _
      cases c <;> exact hc
  · simp only [bind_assoc, pure_bind]
    exact within_createSession hown₁ fun _ _ => hk _ _

theorem within_begin (hk : ∀ a own', Within env (.begin now sessionId input) own' (k a)) :
    Within env (.begin now sessionId input) [] (begin env now sessionId input >>= k) := by
  have hnil : NoneMade [] := fun y hy => by cases hy
  simp only [begin, bind_assoc]
  refine within_query fun w => ?_
  have hown : NoneMade [(w, w)] := hnil.cons fun _ _ h => h
  split
  · exact within_throw _
  · split
    · exact within_openSession hown hk
    · simp only [bind_assoc]
      refine within_query fun w' => ?_
      split
      · exact within_throw _
      · exact within_openSession (hown.cons fun _ _ h => h) hk

end Begin

/-! Verifications and documents -/

theorem each_query (f : Db → α) : (query f).Each Aside := Prog.each_read _ aside_refl

theorem each_handOver (message : CodeMessage) : (handOver message).Each Aside :=
  Prog.each_modify fun _ => ⟨⟨rfl, rfl⟩, rfl⟩

theorem each_committed {R : Registry → Registry → Prop} {body : Tx α} (hrefl : ∀ w, R w w)
    (hbody : ∀ (w : Registry) r, body w.db = .ok r → R w { w with db := r.2 }) :
    (transaction body).Each R := by
  refine Prog.each_attempt hrefl fun w r hb => ?_
  split at hb
  · rename_i r' hr'
    cases hb
    exact hbody w r' hr'
  · cases hb

/-- The transaction leaves the sessions, the users and the KYC records alone. -/
theorem each_transaction {body : Tx α} (hbody : ∀ db r, body db = .ok r →
    r.2.signupSessions = db.signupSessions ∧ r.2.users = db.users ∧
      r.2.kycRecords = db.kycRecords) : (transaction body).Each Aside := by
  refine each_committed aside_refl fun w r hr => ?_
  obtain ⟨hsessions, husers, hkyc⟩ := hbody w.db r hr
  exact ⟨⟨husers, hkyc⟩, hsessions⟩

theorem each_updateVerification (id : Uuid) (f : Verification → Verification) :
    (transaction (updateVerification id f)).Each Aside := by
  refine each_transaction fun db r h => ?_
  unfold updateVerification at h
  split at h
  · cases h
  · cases h
    exact ⟨rfl, rfl, rfl⟩

theorem each_createVerification (id : Uuid) (row : Verification) :
    (transaction (createVerification id row)).Each Aside := by
  refine each_transaction fun db r h => ?_
  unfold createVerification at h
  split at h
  · cases h
  · split at h
    · cases h
    · cases h
      exact ⟨rfl, rfl, rfl⟩

theorem each_createDocument (id : Uuid) (row : Document) :
    (transaction (createDocument id row)).Each Aside := by
  refine each_transaction fun db r h => ?_
  unfold createDocument at h
  split at h
  · cases h
  · split at h
    · cases h
    · cases h
      exact ⟨rfl, rfl, rfl⟩

theorem each_smsSend (sms : Except Error Unit) (toE164 code : String) :
    (smsSend env sms toE164 code).Each Aside := by
  unfold smsSend
  split
  · exact Prog.each_bind (each_handOver _) fun _ => Prog.each_lift _
  · exact each_handOver _

theorem each_dispatch (sms : Except Error Unit) (channel : VerificationChannel)
    (destination code : String) (fallbackEmail : Option String) :
    (dispatch env sms channel destination code fallbackEmail).Each Aside := by
  unfold dispatch
  split
  · exact each_handOver _
  · split
    · exact each_handOver _
    · exact each_smsSend _ _ _
  · exact each_smsSend _ _ _

section Verification

variable (now : Instant) (id : Uuid) (session : SignupSession)

theorem each_issueCode (channel : VerificationChannel) (destination : String) (d : CodeDraws) :
    (issueCode env now id session channel destination d).Each Aside :=
  Prog.each_bind (each_createVerification _ _) fun _ =>
    Prog.each_bind (each_dispatch _ _ _ _ _) fun _ => Prog.each_pure _

theorem each_getDestination (channel : VerificationChannel) :
    (getDestination session channel).Each Aside := by
  unfold getDestination
  split
  · split
    · exact Prog.each_throw _
    · exact Prog.each_pure _
  · exact Prog.each_throw _

theorem each_send (channel : VerificationChannel) (d : CodeDraws) :
    (send env now id session channel d).Each Aside := by
  refine Prog.each_bind (each_getDestination _ _) fun destination => ?_
  refine Prog.each_bind (each_query _) fun existing => ?_
  split
  · split
    · exact Prog.each_pure _
    · exact Prog.each_bind (each_updateVerification _ _) fun _ => each_issueCode _ _ _ _ _ _
  · exact each_issueCode _ _ _ _ _ _

theorem each_ownVerification (verificationId : Uuid) :
    (ownVerification id verificationId).Each Aside := by
  refine Prog.each_bind (each_query _) fun row => ?_
  split
  · exact Prog.each_throw _
  · split
    · exact Prog.each_throw _
    · exact Prog.each_pure _

theorem each_resend (verificationId : Uuid) (d : CodeDraws) :
    (resend env now id session verificationId d).Each Aside := by
  refine Prog.each_bind (each_ownVerification _ _) fun row => ?_
  split
  · exact Prog.each_throw _
  · split
    · exact Prog.each_throw _
    · split
      · exact Prog.each_pure _
      · exact Prog.each_bind (each_updateVerification _ _) fun _ =>
          Prog.each_bind (each_dispatch _ _ _ _ _) fun _ => Prog.each_pure _

theorem each_verify (verificationId : Uuid) (code : String) :
    (verify env now id verificationId code).Each Aside := by
  refine Prog.each_bind (each_ownVerification _ _) fun row => ?_
  split
  · exact Prog.each_throw _
  · split
    · exact Prog.each_throw _
    · split
      · exact Prog.each_throw _
      · split
        · exact Prog.each_throw _
        · split
          · exact Prog.each_bind (each_updateVerification _ _) fun _ => Prog.each_throw _
          · exact Prog.each_bind (each_updateVerification _ _) fun _ => Prog.each_pure _

theorem each_upload (documentId : Uuid) (type : DocumentType) (contentType : String)
    (sizeBytes : ℕ) : (upload env id documentId type contentType sizeBytes).Each Aside := by
  unfold upload
  split
  · exact Prog.each_throw _
  · split
    · exact Prog.each_throw _
    · exact Prog.each_bind (each_createDocument _ _) fun _ => Prog.each_pure _

end Verification

/-! Users -/

theorem addUser_ok {id : Uuid} {row : User} {db : Db} {r : Unit × Db}
    (h : addUser id row db = .ok r) :
    r.2.kycRecords = db.kycRecords ∧ r.2.signupSessions = db.signupSessions := by
  unfold addUser at h
  split at h
  · cases h
  · cases h
    exact ⟨rfl, rfl⟩

theorem editUser_ok {id : Uuid} {f : User → User} {db : Db} {r : Unit × Db}
    (h : editUser id f db = .ok r) :
    r.2.kycRecords = db.kycRecords ∧ r.2.signupSessions = db.signupSessions := by
  unfold editUser at h
  split at h
  · cases h
  · split at h
    · cases h
    · cases h
      exact ⟨rfl, rfl⟩

theorem deleteUserTx_ok {id : Uuid} {email : String} {db : Db} {r : Unit × Db}
    (h : deleteUserTx id email db = .ok r) : (db.users.lookup id).isSome ∧
      r.2.users.lookup id = none ∧ ∀ s row, r.2.signupSessions.lookup s = some row →
        db.signupSessions.lookup s = some row := by
  unfold deleteUserTx at h
  split at h
  · cases h
  · rename_i hthere
    cases h
    exact ⟨Option.isSome_iff_ne_none.2 (by simpa using hthere), AList.lookup_erase _ _,
      fun s row hs => (Table.lookup_deleteMany.1 hs).1⟩

/-- **Every action of every handler is one that its call can take.** -/
theorem handle_does (env : Env) (c : Call) : Within env c [] (handle env c) := by
  cases c with
  | begin now sessionId input => exact within_begin fun _ _ => within_pure _
  | send now id channel d =>
    refine within_load fun own session hread => ?_
    refine within_aside (each_send now id session channel d) fun result later => ?_
    exact within_markChannelChosen hread.mono fun _ _ => within_pure _
  | resend now id verificationId d =>
    refine within_load fun own session hread => ?_
    exact within_aside (each_resend now id session verificationId d) fun _ _ => within_pure _
  | verify now id verificationId code =>
    refine within_load fun own session hread => ?_
    refine within_aside (each_verify now id verificationId code) fun channel later => ?_
    exact within_markVerified hread.mono fun _ _ => within_pure _
  | markChannelChosen now id =>
    exact within_load fun _ _ hread => within_markChannelChosen hread fun _ _ => within_pure _
  | markVerified now id channel =>
    exact within_load fun _ _ hread => within_markVerified hread fun _ _ => within_pure _
  | setDob now id dob =>
    exact within_load fun _ _ hread => within_setDob hread fun _ _ => within_pure _
  | setCard now id cardChoice =>
    exact within_load fun _ _ hread => within_setCard hread fun _ _ => within_pure _
  | setAddress now id addr =>
    exact within_load fun _ _ hread => within_setAddress hread fun _ _ => within_pure _
  | setPassword now id salt password =>
    exact within_load fun _ _ hread => within_setPassword hread fun _ _ => within_pure _
  | setDetails now id d =>
    exact within_load fun _ _ hread => within_setDetails hread fun _ _ => within_pure _
  | setSsn now id iv ssnPlain =>
    exact within_load fun _ _ hread => within_setSsn hread fun _ _ => within_pure _
  | upload now id documentId type contentType sizeBytes =>
    refine within_load fun own session hread => ?_
    exact within_aside (each_upload id documentId type contentType sizeBytes) fun _ _ =>
      within_pure _
  | markDocsSubmitted now id =>
    exact within_load fun _ _ hread => within_markDocsSubmitted hread fun _ _ => within_pure _
  | complete now id userId kycId =>
    exact within_load fun _ _ hread => within_complete hread fun _ _ => within_pure _
  | addUser id row =>
    refine within_transaction fun w r hb => ⟨?_, within_pure _⟩
    obtain ⟨hkyc, hsessions⟩ := addUser_ok hb
    exact .users rfl hkyc hsessions
  | editUser id f =>
    refine within_transaction fun w r hb => ⟨?_, within_pure _⟩
    obtain ⟨hkyc, hsessions⟩ := editUser_ok hb
    exact .users rfl hkyc hsessions
  | deleteUser id =>
    simp only [handle, quietly, deleteUser, bind_assoc]
    refine within_query fun w => ?_
    cases w.db.users.lookup id with
    | none => exact within_throw _
    | some target =>
      refine within_transaction fun w' r hb => ⟨?_, within_pure _⟩
      obtain ⟨hthere, hgone, hsessions⟩ := deleteUserTx_ok hb
      exact .deleted hthere hgone hsessions

end Rules

end BankDemo.Signup
