import BankDemo.Admin.Users

/-!
# When the deletion of a user goes through

Before `hardDelete` takes a row that required relations may refer to, it takes the rows that do, for
each of the relations but one: nothing takes the password resets of a user. `hardDeleteTx_commits`
follows its statements: where none of these refers to the user, and sessions are on devices of their
own users, each statement is allowed, and so the transaction commits.
-/

namespace BankDemo.Admin

open ForeignKeys

/-- Every session is on a device of its own user. -/
def OwnDevices (db : Db) : Prop :=
  ∀ id s owner, db.sessions.lookup id = some s →
    db.owned.lookup (.device, s.deviceId) = some owner → s.userId = owner

theorem commits_deleteFrom {κ ρ : Type} {table : Db → Table κ ρ} {put : Db → Table κ ρ → Db}
    {p : κ → ρ → Bool} {db : Db} {Q : ℕ → Db → Prop}
    (h : Q ((table db).count p) (put db ((table db).deleteMany p))) :
    Commits (deleteFrom table put p) db Q :=
  ⟨_, _, rfl, h⟩

/-- A deletion by owner takes every reference from its tables to the owners, and adds none. -/
theorem commits_deleteOwned {tables : List OwnedTable} {owners : List Uuid} {db : Db}
    {Q : (OwnedTable → ℕ) → Db → Prop}
    (h : ∀ counts T, (∀ k owner, T.lookup k = some owner ↔
      db.owned.lookup k = some owner ∧ ¬ (k.1 ∈ tables ∧ owner ∈ owners)) →
      Q counts { db with owned := T }) : Commits (deleteOwned tables owners) db Q := by
  refine ⟨_, _, rfl, h _ _ fun k owner => ?_⟩
  rw [Table.lookup_deleteMany, decide_eq_false_iff_not]

section Columns

variable {κ ρ : Type} [DecidableEq κ] {t t' : Table κ ρ} {f : κ → ρ → Option Uuid}

theorem values_subset (h : ∀ k r, t'.lookup k = some r → t.lookup k = some r) :
    t'.values f ⊆ t.values f := by
  intro x hx
  obtain ⟨k, r, hk, hf⟩ := Table.mem_values.1 hx
  exact Table.mem_values.2 ⟨k, r, h k r hk, hf⟩

/-- A column is clear of what the deleted rows referred to. -/
theorem values_deleteMany_clear {p : κ → ρ → Bool} {g : κ → ρ → Uuid} {gone : Uuid → Bool}
    (h : ∀ k r, t.lookup k = some r → gone (g k r) = true → p k r = true) :
    ∀ x ∈ (t.deleteMany p).values fun k r => some (g k r), gone x = false := by
  intro x hx
  obtain ⟨k, r, hk, hp, hx⟩ := Table.values_deleteMany.1 hx
  obtain rfl := Option.some.inj hx
  by_contra hgone
  rw [h k r hk (by simpa using hgone)] at hp
  cases hp

end Columns

/-- `db'` has no rows that `db` has not, in the tables that have required relations. -/
structure Thinner (db db' : Db) : Prop where
  owned : ∀ k r, db'.owned.lookup k = some r → db.owned.lookup k = some r := by
    exact fun _ _ h => h
  accounts : ∀ k r, db'.accounts.lookup k = some r → db.accounts.lookup k = some r := by
    exact fun _ _ h => h
  transactions : ∀ k r, db'.transactions.lookup k = some r →
    db.transactions.lookup k = some r := by exact fun _ _ h => h
  overrides : ∀ k r, db'.overrides.lookup k = some r → db.overrides.lookup k = some r := by
    exact fun _ _ h => h
  goals : ∀ k r, db'.goals.lookup k = some r → db.goals.lookup k = some r := by
    exact fun _ _ h => h
  autosaveConfigs : ∀ k r, db'.autosaveConfigs.lookup k = some r →
    db.autosaveConfigs.lookup k = some r := by exact fun _ _ h => h
  sessions : ∀ k r, db'.sessions.lookup k = some r → db.sessions.lookup k = some r := by
    exact fun _ _ h => h
  passwordResets : ∀ k r, db'.passwordResets.lookup k = some r →
    db.passwordResets.lookup k = some r := by exact fun _ _ h => h
  verifications : ∀ k r, db'.verifications.lookup k = some r →
    db.verifications.lookup k = some r := by exact fun _ _ h => h

theorem Thinner.fewer {db db' : Db} (h : Thinner db db') : Fewer refs db db' := by
  intro k
  unfold refs
  cases k with
  | goalUser => exact values_subset h.goals
  | autosaveConfigUser => exact values_subset h.autosaveConfigs
  | accountUser => exact values_subset h.accounts
  | sessionUser | sessionDevice => exact values_subset h.sessions
  | passwordResetUser => exact values_subset h.passwordResets
  | transactionAccount => exact values_subset h.transactions
  | overrideTransaction => exact values_subset h.overrides
  | verificationSignup => exact values_subset h.verifications
  | _ => exact values_subset h.owned

theorem lookup_of_deleteMany {κ ρ : Type} [DecidableEq κ] {t : Table κ ρ} {p : κ → ρ → Bool}
    (k : κ) (r : ρ) (h : (t.deleteMany p).lookup k = some r) : t.lookup k = some r :=
  (Table.lookup_deleteMany.1 h).1

/-- No row of these tables is left that belongs to one of the owners. -/
theorem owners_clear {tables : List OwnedTable} {gone : List Uuid} {db db' : Db}
    (h : ∀ k owner, db'.owned.lookup k = some owner ↔
      db.owned.lookup k = some owner ∧ ¬ (k.1 ∈ tables ∧ owner ∈ gone))
    {table : OwnedTable} (htable : table ∈ tables) :
    ∀ id ∈ owners table db', id ∉ gone := by
  intro id hid hgone
  obtain ⟨row, hrow⟩ := mem_owners.1 hid
  exact ((h (table, row) id).1 hrow).2 ⟨htable, hgone⟩

/-! ## The rows that point at the accounts -/

/-- What is left when the rows that point at the accounts are gone. -/
structure Detached (accountIds : List Uuid) (db db' : Db) : Prop where
  users : db'.users = db.users
  accounts : db'.accounts = db.accounts
  sessions : db'.sessions = db.sessions
  fewer : Fewer refs db db'
  owned : ∀ k owner, db'.owned.lookup k = some owner → db.owned.lookup k = some owner
  clear : ∀ k ∈ Parent.account.relations, Clear refs k (fun id => id ∈ accountIds) db'

theorem deleteOfAccounts_commits (accountIds : List Uuid) (db : Db) :
    Commits (deleteOfAccounts accountIds) db fun _ db' => Detached accountIds db db' := by
  unfold deleteOfAccounts
  split
  · rename_i hnil
    subst hnil
    exact commits_pure ⟨rfl, rfl, rfl, .refl db, fun _ _ h => h, fun _ _ _ _ => by simp⟩
  · refine commits_bind (commits_deleteFrom (commits_bind (commits_deleteFrom
      (commits_bind (commits_referenced (fun k hk => ?_) (commits_deleteFrom
      (commits_bind (commits_deleteOwned fun _ T hT => commits_pure ?_))))))))
    · -- the overrides of the transactions are gone
      obtain rfl := List.mem_singleton.1 hk
      simp only [Clear, refs]
      exact values_deleteMany_clear fun _ _ _ hgone => hgone
    · have howned : ∀ k owner, T.lookup k = some owner → db.owned.lookup k = some owner :=
        fun k owner hk => ((hT k owner).1 hk).1
      refine ⟨rfl, rfl, rfl, Thinner.fewer ?_, howned, fun k hk => ?_⟩
      · exact {
          overrides := lookup_of_deleteMany
          transactions := lookup_of_deleteMany
          owned := howned }
      simp only [Parent.relations, List.mem_cons, List.not_mem_nil, or_false] at hk
      obtain rfl | rfl | rfl := hk
      · exact fun id hid => decide_eq_false (owners_clear hT (by decide) id hid)
      · simp only [Clear, refs]
        exact values_deleteMany_clear fun _ _ _ hgone => hgone
      · exact fun id hid => decide_eq_false (owners_clear hT (by decide) id hid)

/-! ## The transaction -/

/-- What is left of the user before its accounts go: they, the sessions and the devices. -/
structure Stripped (userId : Uuid) (db db' : Db) : Prop where
  users : db'.users = db.users
  accounts : db'.accounts = db.accounts
  sessions : db'.sessions = db.sessions
  fewer : Fewer refs db db'
  devices : ∀ id owner, db'.owned.lookup (.device, id) = some owner →
    db.owned.lookup (.device, id) = some owner
  clear : ∀ k ∈ [Relation.contactOwner, .goalUser, .autosaveConfigUser, .mfaChallengeUser,
    .kycRecordUser], Clear refs k (fun id => id = userId) db'

/-- The rows of the user, table by table: the middle of the transaction. -/
theorem stripped_of_deleteMany {userId : Uuid} {db : Db} {T : Table (OwnedTable × Uuid) Uuid}
    {documents : Table Uuid Document} {checkDeposits : Table Uuid CheckDeposit}
    {linkedAccounts : Table Uuid LinkedAccount} {paymentRequests : Table Uuid PaymentRequest}
    {roundUps : Table Uuid RoundUp}
    (hT : ∀ k owner, T.lookup k = some owner ↔
      db.owned.lookup k = some owner ∧ ¬ (k.1 ∈ userTables ∧ owner ∈ [userId])) :
    Stripped userId db { db with
      owned := T
      autosaveConfigs := db.autosaveConfigs.deleteMany fun id _ => id = userId
      goals := db.goals.deleteMany fun _ g => g.userId = userId
      documents, checkDeposits, linkedAccounts, paymentRequests, roundUps } where
  users := rfl
  accounts := rfl
  sessions := rfl
  fewer := Thinner.fewer {
    owned := fun k owner hk => ((hT k owner).1 hk).1
    autosaveConfigs := lookup_of_deleteMany
    goals := lookup_of_deleteMany }
  devices := fun id owner hk => ((hT _ owner).1 hk).1
  clear := by
    have howned : ∀ table ∈ userTables, ∀ id ∈ owners table { db with owned := T },
        decide (id = userId) = false := fun table htable id hid =>
      decide_eq_false fun heq => owners_clear hT htable id hid (List.mem_singleton.2 heq)
    intro k hk
    simp only [List.mem_cons, List.not_mem_nil, or_false] at hk
    obtain rfl | rfl | rfl | rfl | rfl := hk
    · exact howned .contact (by decide)
    · simp only [Clear, refs]
      exact values_deleteMany_clear fun _ _ _ hgone => hgone
    · simp only [Clear, refs]
      exact values_deleteMany_clear fun _ _ _ hgone => hgone
    · exact howned .mfaChallenge (by decide)
    · exact howned .kycRecord (by decide)

/-- The sessions that are left when the user's are gone are not on the user's devices. -/
theorem sessions_off_devices {userId : Uuid} {db db' : Db} (hown : OwnDevices db)
    (hsessions : db'.sessions = db.sessions.deleteMany fun _ s => s.userId = userId)
    (hdevices : ∀ id owner, db'.owned.lookup (.device, id) = some owner →
      db.owned.lookup (.device, id) = some owner) :
    Clear refs .sessionDevice (fun id => db'.owned.lookup (.device, id) = some userId) db' := by
  simp only [Clear, refs, hsessions]
  refine values_deleteMany_clear fun id s hs hgone => ?_
  have howner := hown id s userId hs (hdevices _ _ (of_decide_eq_true hgone))
  exact decide_eq_true howner

theorem deleteUser_commits {userId : Uuid} {db : Db} (huser : (db.users.lookup userId).isSome)
    (hclear : ∀ k ∈ Parent.user.relations, Clear refs k (fun id => id = userId) db) :
    Commits (deleteUser userId) db fun _ db' => db' = dropUser userId db := by
  have hrun : deleteUser userId db =
      referencedBy .user (fun _ id => id = userId) (fun db => .ok ((), dropUser userId db)) db := by
    unfold deleteUser
    rw [if_neg]
    simpa [Option.isSome_iff_ne_none] using huser
  unfold Commits
  rw [hrun]
  exact commits_referenced hclear ⟨_, _, rfl, rfl⟩

theorem deleteSignups_commits (email : String) (db : Db) :
    Commits (deleteSignups email) db fun _ _ => True := by
  unfold deleteSignups
  refine commits_bind (commits_deleteFrom (commits_bind (commits_referenced (fun k hk => ?_)
    ⟨_, _, rfl, commits_pure trivial⟩)))
  -- the verifications of the sessions are gone
  obtain rfl := List.mem_singleton.1 hk
  simp only [Clear, refs]
  exact values_deleteMany_clear fun _ _ _ hgone => hgone

/-- **The transaction commits** when no password reset refers to the user. -/
theorem hardDeleteTx_commits {userId : Uuid} {email : String} {db : Db} (hown : OwnDevices db)
    (huser : (db.users.lookup userId).isSome)
    (hresets : Clear refs .passwordResetUser (fun id => id = userId) db) :
    Commits (hardDeleteTx userId email (accountsOf userId db)) db fun _ _ => True := by
  unfold hardDeleteTx
  refine commits_bind ((deleteOfAccounts_commits _ db).imp fun _ db₁ h₁ => ?_)
  refine commits_bind (commits_deleteOwned fun _ T hT => ?_)
  refine commits_bind (commits_deleteFrom (commits_bind (commits_deleteFrom ?_)))
  refine commits_bind (commits_deleteFrom (commits_bind (commits_deleteFrom ?_)))
  refine commits_bind (commits_deleteFrom (commits_bind (commits_deleteFrom ?_)))
  refine commits_bind (commits_deleteFrom ?_)
  refine (?_ : ∀ db₉, Stripped userId db₁ db₉ → Commits _ db₉ _) _ (stripped_of_deleteMany hT)
  intro db₉ h₉
  have hfewer₉ : Fewer refs db db₉ := h₁.fewer.trans h₉.fewer
  have haccounts₉ : db₉.accounts = db.accounts := h₉.accounts.trans h₁.accounts
  -- the accounts
  refine commits_bind (commits_referenced (fun k hk => ?_) (commits_deleteFrom ?_))
  · refine ((h₁.clear k hk).fewer h₉.fewer).imp fun id hgone => ?_
    rw [haccounts₉] at hgone
    obtain ⟨acct, hacct, howner⟩ := (Option.any_eq_true _ _).1 hgone
    exact decide_eq_true (mem_accountsOf.2 ⟨acct, hacct, of_decide_eq_true howner⟩)
  -- the sessions and the devices
  have hdevices : ∀ id owner, db₉.owned.lookup (.device, id) = some owner →
      db.owned.lookup (.device, id) = some owner := fun id owner hk =>
    h₁.owned _ _ (h₉.devices id owner hk)
  refine commits_bind (commits_deleteFrom (commits_bind (commits_referenced (fun k hk => ?_)
    (commits_deleteOwned fun _ T' hT' => ?_))))
  · obtain rfl := List.mem_singleton.1 hk
    refine sessions_off_devices hown ?_ hdevices
    rw [← h₁.sessions, ← h₉.sessions]
  -- the user
  refine commits_bind ((deleteUser_commits ?_ fun k hk => ?_).imp fun _ db₁₃ _ => ?_)
  · rw [← h₁.users, ← h₉.users] at huser
    exact huser
  · have hfewer₁₂ : Fewer refs db₉ { db₉ with
        accounts := db₉.accounts.deleteMany fun _ a => a.userId = userId
        sessions := db₉.sessions.deleteMany fun _ s => s.userId = userId
        owned := T' } := Thinner.fewer {
      accounts := lookup_of_deleteMany
      sessions := lookup_of_deleteMany
      owned := fun k owner hk => ((hT' k owner).1 hk).1 }
    simp only [Parent.relations, List.mem_cons, List.not_mem_nil, or_false] at hk
    obtain rfl | rfl | rfl | rfl | rfl | rfl | rfl | rfl | rfl := hk
    · exact (h₉.clear _ (by decide)).fewer hfewer₁₂
    · exact (h₉.clear _ (by decide)).fewer hfewer₁₂
    · exact (h₉.clear _ (by decide)).fewer hfewer₁₂
    · simp only [Clear, refs]
      exact values_deleteMany_clear fun _ _ _ hgone => hgone
    · exact fun id hid => decide_eq_false fun heq =>
        owners_clear hT' (by decide) id hid (List.mem_singleton.2 heq)
    · simp only [Clear, refs]
      exact values_deleteMany_clear fun _ _ _ hgone => hgone
    · exact (h₉.clear _ (by decide)).fewer hfewer₁₂
    · exact hresets.fewer (hfewer₉.trans hfewer₁₂)
    · exact (h₉.clear _ (by decide)).fewer hfewer₁₂
  -- the sign-ups
  exact commits_bind ((deleteSignups_commits email db₁₃).imp fun _ _ _ => commits_pure trivial)

end BankDemo.Admin
