import BankDemo.Admin.Relations
import BankDemo.Foundations.JsString

/-!
# Users, as admins reset and delete them

`AdminUsersService.resetHistory` deletes the transactions of a user's accounts and sets their
balances to zero; transfers and the ledger are left as they are. `AdminUsersService.hardDelete`
deletes a user with all rows that point at it, table by table in one transaction, among them every
transfer from or to one of the user's accounts. The audit log is left out.
-/

namespace BankDemo.Admin

/-! ## Statements on many rows -/

/-- `deleteMany` on a table of the database: how many rows there were. -/
def deleteFrom {κ ρ : Type} (table : Db → Table κ ρ) (put : Db → Table κ ρ → Db)
    (p : κ → ρ → Bool) : Tx ℕ := fun db =>
  .ok ((table db).count p, put db ((table db).deleteMany p))

/-- The accounts of a user. -/
def accountsOf (userId : Uuid) (db : Db) : List Uuid :=
  (db.accounts.entries.filter fun e => e.2.userId = userId).map Sigma.fst

/-- The transaction is one of these accounts. -/
def onAccounts (accountIds : List Uuid) (row : Transaction) : Bool := row.accountId ∈ accountIds

/-- `transactionOverride.deleteMany`, by the accounts of the transactions. -/
def deleteOverrides (accountIds : List Uuid) : Tx ℕ := fun db =>
  deleteFrom Db.overrides (fun db T => { db with overrides := T })
    (fun id _ => (db.transactions.lookup id).any (onAccounts accountIds)) db

/-- `transaction.deleteMany`, by account. -/
def deleteTransactions (accountIds : List Uuid) : Tx ℕ :=
  referencedBy .transaction (fun db id => (db.transactions.lookup id).any (onAccounts accountIds))
    (deleteFrom Db.transactions (fun db T => { db with transactions := T })
      fun _ row => onAccounts accountIds row)

theorem deleteTransactions_ok {accountIds : List Uuid} {db : Db} {r : ℕ × Db}
    (h : deleteTransactions accountIds db = .ok r) : r.2 = { db with
      transactions := db.transactions.deleteMany fun _ row => onAccounts accountIds row } := by
  unfold deleteTransactions at h
  cases (referencedBy_ok h).2
  rfl

/-! ## Resetting the history -/

/-- A call of `resetHistory`. -/
structure ResetCall where
  actorUserId : Uuid
  targetUserId : Uuid
  reason : String

structure ResetResult where
  deletedTransactions : ℕ
  deletedOverrides : ℕ
  accountsZeroed : ℕ
  deriving DecidableEq

/-- `account.updateMany` with `balanceCents: 0n`. -/
def zeroBalances (accountIds : List Uuid) : Tx Unit := fun db =>
  .ok ((), { db with
    accounts := db.accounts.updateMany (fun a _ => a ∈ accountIds) fun acct =>
      { acct with balanceCents := 0 } })

/-- The transaction of `resetHistory`. -/
def resetTx (accountIds : List Uuid) : Tx ResetResult := do
  let overrides ← deleteOverrides accountIds
  let transactions ← deleteTransactions accountIds
  zeroBalances accountIds
  return ⟨transactions, overrides, accountIds.length⟩

/-- The events after a reset. -/
def announceZero (userId : Uuid) : List Uuid → Service Unit
  | [] => pure ()
  | a :: accountIds => do
    emit (.accountBalanceChanged userId a 0)
    announceZero userId accountIds

/-- `resetHistory` on a user that exists. -/
def resetAccounts (me : ℕ) (c : ResetCall) : Service ResetResult := do
  let accountIds ← query (accountsOf c.targetUserId)
  if accountIds = [] then return ⟨0, 0, 0⟩
  else do
    let result ← transaction me accountIds (resetTx accountIds)
    announceZero c.targetUserId accountIds
    return result

/-- `AdminUsersService.resetHistory`. -/
def resetHistory (me : ℕ) (c : ResetCall) : Service ResetResult :=
  if c.actorUserId = c.targetUserId then throw (.badRequest "Cannot reset your own history")
  else do
    let target ← query fun db => db.users.lookup c.targetUserId
    match target with
    | none => throw (.notFound "User not found")
    | some _ => resetAccounts me c

/-- The database after a reset of these accounts. -/
def wiped (accountIds : List Uuid) (db : Db) : Db :=
  { db with
    overrides := db.overrides.deleteMany fun id _ =>
      (db.transactions.lookup id).any (onAccounts accountIds)
    transactions := db.transactions.deleteMany fun _ row => onAccounts accountIds row
    accounts := db.accounts.updateMany (fun a _ => a ∈ accountIds) fun acct =>
      { acct with balanceCents := 0 } }

theorem resetTx_ok {accountIds : List Uuid} {db : Db} {r : ResetResult × Db}
    (h : resetTx accountIds db = .ok r) : r.2 = wiped accountIds db := by
  obtain ⟨_, db₁, h₁, h⟩ := tx_bind_ok.1 h
  obtain ⟨_, db₂, h₂, h⟩ := tx_bind_ok.1 h
  obtain ⟨_, db₃, h₃, h⟩ := tx_bind_ok.1 h
  obtain rfl := tx_pure_ok.1 h
  have hdb₂ := deleteTransactions_ok h₂
  cases h₁
  cases h₃
  simp only at hdb₂
  simp only [hdb₂, wiped]

theorem balance_wiped {accountIds : List Uuid} {a : Uuid} (ha : a ∉ accountIds) (db : Db) :
    (wiped accountIds db).balance a = db.balance a := by
  have hlookup : (wiped accountIds db).accounts.lookup a = db.accounts.lookup a := by
    simp only [wiped, Table.lookup_updateMany, ha]
    simp
  simp only [Db.balance, hlookup]

theorem quiet_announceZero (userId : Uuid) : ∀ accountIds, Quiet (announceZero userId accountIds)
  | [] => quiet_pure ()
  | _ :: accountIds => quiet_bind (quiet_emit _) fun _ => quiet_announceZero userId accountIds

/-! ## Deleting a user -/

/-- A call of `hardDelete`. -/
structure HardDeleteCall where
  actorUserId : Uuid
  actorRole : UserRole
  targetUserId : Uuid
  confirmation : String
  reason : String

/-- How many rows of each table a deletion took. -/
structure DeletedCounts where
  accounts : ℕ
  transactions : ℕ
  transactionOverrides : ℕ
  transfers : ℕ
  autosaveConfigs : ℕ
  checkDeposits : ℕ
  goals : ℕ
  linkedAccounts : ℕ
  paymentRequests : ℕ
  roundUpLedger : ℕ
  sessions : ℕ
  documents : ℕ
  signupSessions : ℕ
  verifications : ℕ
  owned : OwnedTable → ℕ

/-- The tables that are deleted from by account. -/
def accountTables : List OwnedTable := [.statement, .card, .accountLimits]

/-- The tables that are deleted from by user, before the accounts. -/
def userTables : List OwnedTable :=
  [.cardOrder, .activatedDeal, .biometricChallenge, .biometricEnrollment, .contact, .directDeposit,
    .idempotencyKey, .kycRecord, .mfaChallenge, .notification, .notificationPreference,
    .recurringTransfer, .referral, .taxForm, .totpSecret, .userPreference, .supportThread]

/-- `deleteMany` on some of the other tables, by owner: how many rows of each. -/
def deleteOwned (tables : List OwnedTable) (owners : List Uuid) : Tx (OwnedTable → ℕ) := fun db =>
  let gone : OwnedTable × Uuid → Uuid → Bool := fun k owner => k.1 ∈ tables ∧ owner ∈ owners
  .ok (fun table => db.owned.count fun k owner => k.1 = table ∧ gone k owner,
    { db with owned := db.owned.deleteMany gone })

/-- The transfer is from or to one of these accounts. -/
def touches (accountIds : List Uuid) (t : Transfer) : Bool :=
  t.fromAccountId ∈ accountIds || t.toAccountId.any fun a => a ∈ accountIds

/-- The rows that point at the user's accounts. -/
def deleteOfAccounts (accountIds : List Uuid) : Tx (ℕ × ℕ × ℕ × (OwnedTable → ℕ)) :=
  if accountIds = [] then return (0, 0, 0, fun _ => 0)
  else do
    let overrides ← deleteOverrides accountIds
    let transfers ← deleteFrom Db.transfers (fun db T => { db with transfers := T })
      fun _ t => touches accountIds t
    let transactions ← deleteTransactions accountIds
    let owned ← deleteOwned accountTables accountIds
    return (overrides, transfers, transactions, owned)

/-- `account.deleteMany`, by user. -/
def deleteAccounts (userId : Uuid) : Tx ℕ :=
  referencedBy .account (fun db id => (db.accounts.lookup id).any fun a => a.userId = userId)
    (deleteFrom Db.accounts (fun db T => { db with accounts := T }) fun _ a => a.userId = userId)

/-- `device.deleteMany`, by user. -/
def deleteDevices (userId : Uuid) : Tx (OwnedTable → ℕ) :=
  referencedBy .device (fun db id => db.owned.lookup (.device, id) = some userId)
    (deleteOwned [.device] [userId])

/-- The row of the user goes; what is left of its documents is nobody's. -/
def dropUser (userId : Uuid) (db : Db) : Db :=
  { db with
    users := db.users.erase userId
    documents := db.documents.updateMany (fun _ d => d.ownerUserId = some userId) fun d =>
      { d with ownerUserId := none } }

/-- `user.delete`. -/
def deleteUser (userId : Uuid) : Tx Unit := fun db =>
  if (db.users.lookup userId).isNone then .error .recordNotFound
  else referencedBy .user (fun _ id => id = userId) (fun db => .ok ((), dropUser userId db)) db

/-- The sign-ups under the e-mail address go; their documents are no sign-up's. -/
def dropSignups (email : String) (db : Db) : Db :=
  { db with
    signupSessions := db.signupSessions.deleteMany fun _ x => x = email
    documents := db.documents.updateMany
      (fun _ d => d.ownerSignupId.any fun id => db.signupSessions.lookup id = some email)
      fun d => { d with ownerSignupId := none } }

/-- `signupSession.deleteMany`, by e-mail address. -/
def deleteSignupSessions (email : String) : Tx ℕ :=
  referencedBy .signupSession (fun db id => db.signupSessions.lookup id = some email) fun db =>
    .ok (db.signupSessions.count fun _ x => x = email, dropSignups email db)

/-- The sign-ups under the user's e-mail address: sessions and verifications. -/
def deleteSignups (email : String) : Tx (ℕ × ℕ) := do
  let verifications ← fun db =>
    deleteFrom Db.verifications (fun db T => { db with verifications := T })
      (fun _ id => db.signupSessions.lookup id = some email) db
  let signupSessions ← deleteSignupSessions email
  return (signupSessions, verifications)

/-- The transaction of `hardDelete`. -/
def hardDeleteTx (userId : Uuid) (email : String) (accountIds : List Uuid) : Tx DeletedCounts := do
  let (transactionOverrides, transfers, transactions, ofAccounts) ← deleteOfAccounts accountIds
  let ofUser ← deleteOwned userTables [userId]
  let documents ← deleteFrom Db.documents (fun db T => { db with documents := T })
    fun _ d => d.ownerUserId = some userId
  let autosaveConfigs ← deleteFrom Db.autosaveConfigs (fun db T => { db with autosaveConfigs := T })
    fun id _ => id = userId
  let checkDeposits ← deleteFrom Db.checkDeposits (fun db T => { db with checkDeposits := T })
    fun _ d => d.userId = userId
  let goals ← deleteFrom Db.goals (fun db T => { db with goals := T }) fun _ g => g.userId = userId
  let linkedAccounts ← deleteFrom Db.linkedAccounts (fun db T => { db with linkedAccounts := T })
    fun _ l => l.userId = userId
  let paymentRequests ← deleteFrom Db.paymentRequests (fun db T => { db with paymentRequests := T })
    fun _ r => r.requesterUserId = userId || r.payerUserId = some userId
  let roundUpLedger ← deleteFrom Db.roundUps (fun db T => { db with roundUps := T })
    fun _ r => r.userId = userId
  let accounts ← deleteAccounts userId
  let sessions ← deleteFrom Db.sessions (fun db T => { db with sessions := T })
    fun _ s => s.userId = userId
  let devices ← deleteDevices userId
  deleteUser userId
  let (signupSessions, verifications) ← deleteSignups email
  return { accounts, transactions, transactionOverrides, transfers, autosaveConfigs, checkDeposits,
           goals, linkedAccounts, paymentRequests, roundUpLedger, sessions, documents,
           signupSessions, verifications,
           owned := fun table => ofAccounts table + ofUser table + devices table }

/-- Who may delete whom. -/
def mayDelete (actorRole : UserRole) (target : User) : Bool :=
  actorRole = .superadmin || !(target.role = .admin || target.role = .superadmin)

/-- `hardDelete` on a user that was found. `toLowerCase` is JavaScript's. -/
def deleteFound (toLowerCase : String → String) (me : ℕ) (c : HardDeleteCall) (target : User) :
    Service DeletedCounts :=
  if !mayDelete c.actorRole target then
    throw (.forbidden "Only a superadmin can delete an admin or superadmin account")
  else
    let expected := toLowerCase (JsString.trim target.email)
    let given := toLowerCase (JsString.trim c.confirmation)
    if given = "" ∨ given ≠ expected then
      throw (.badRequest s!"Confirmation must match the user's email ({target.email}) exactly")
    else do
      let accountIds ← query (accountsOf c.targetUserId)
      transaction me accountIds (hardDeleteTx c.targetUserId target.email accountIds)

/-- `AdminUsersService.hardDelete`: the counts of its answer. -/
def hardDelete (toLowerCase : String → String) (me : ℕ) (c : HardDeleteCall) :
    Service DeletedCounts :=
  if c.actorRole ≠ .admin ∧ c.actorRole ≠ .superadmin then
    throw (.forbidden "Only admins can delete users")
  else if c.actorUserId = c.targetUserId then
    throw (.badRequest "Cannot delete your own account")
  else do
    let target ← query fun db => db.users.lookup c.targetUserId
    match target with
    | none => throw (.notFound "User not found")
    | some target => deleteFound toLowerCase me c target

/-- The checks of `hardDelete` on who asks for what: the call is let through to the transaction. -/
structure Confirmed (toLowerCase : String → String) (c : HardDeleteCall) (target : User) : Prop where
  role : c.actorRole = .admin ∨ c.actorRole = .superadmin
  other : c.actorUserId ≠ c.targetUserId
  may : mayDelete c.actorRole target = true
  given : toLowerCase (JsString.trim c.confirmation) ≠ ""
  same : toLowerCase (JsString.trim c.confirmation) = toLowerCase (JsString.trim target.email)

/-! ## What a deletion did -/

theorem deleteOfAccounts_ok {accountIds : List Uuid} {db : Db}
    {r : (ℕ × ℕ × ℕ × (OwnedTable → ℕ)) × Db} (h : deleteOfAccounts accountIds db = .ok r) :
    r.2.accounts = db.accounts ∧ r.2.passwordResets = db.passwordResets ∧
      r.2.transfers = db.transfers.deleteMany fun _ t => touches accountIds t := by
  unfold deleteOfAccounts at h
  split at h
  · rename_i hnil
    obtain rfl := tx_pure_ok.1 h
    refine ⟨rfl, rfl, (Table.deleteMany_of_false fun _ t => ?_).symm⟩
    simp [touches, hnil]
  · obtain ⟨_, db₁, h₁, h⟩ := tx_bind_ok.1 h
    obtain ⟨_, db₂, h₂, h⟩ := tx_bind_ok.1 h
    obtain ⟨_, db₃, h₃, h⟩ := tx_bind_ok.1 h
    obtain ⟨_, db₄, h₄, h⟩ := tx_bind_ok.1 h
    obtain rfl := tx_pure_ok.1 h
    have hdb₃ := deleteTransactions_ok h₃
    cases h₁
    cases h₂
    cases h₄
    simp only at hdb₃
    simp only [hdb₃, and_self]

theorem deleteAccounts_ok {userId : Uuid} {db : Db} {r : ℕ × Db}
    (h : deleteAccounts userId db = .ok r) :
    r.2 = { db with accounts := db.accounts.deleteMany fun _ a => a.userId = userId } := by
  unfold deleteAccounts at h
  cases (referencedBy_ok h).2
  rfl

theorem deleteDevices_ok {userId : Uuid} {db : Db} {r : (OwnedTable → ℕ) × Db}
    (h : deleteDevices userId db = .ok r) : deleteOwned [.device] [userId] db = .ok r := by
  unfold deleteDevices at h
  exact (referencedBy_ok h).2

/-- No row refers to a user that was deleted. -/
theorem deleteUser_ok {userId : Uuid} {db : Db} {r : Unit × Db} (h : deleteUser userId db = .ok r) :
    r.2 = dropUser userId db ∧
      ∀ k ∈ Parent.user.relations, ForeignKeys.Clear refs k (fun id => id = userId) db := by
  unfold deleteUser at h
  split at h
  · cases h
  · obtain ⟨hclear, hdb⟩ := referencedBy_ok h
    cases hdb
    exact ⟨rfl, hclear⟩

theorem deleteSignups_ok {email : String} {db : Db} {r : (ℕ × ℕ) × Db}
    (h : deleteSignups email db = .ok r) :
    r.2.accounts = db.accounts ∧ r.2.transfers = db.transfers := by
  obtain ⟨_, db₁, h₁, h⟩ := tx_bind_ok.1 h
  obtain ⟨_, db₂, h₂, h⟩ := tx_bind_ok.1 h
  obtain rfl := tx_pure_ok.1 h
  unfold deleteSignupSessions at h₂
  cases h₁
  cases (referencedBy_ok h₂).2
  exact ⟨rfl, rfl⟩

/-- A deletion takes the accounts of the user and the transfers from and to them. It went through
because no password reset refers to the user. -/
theorem hardDeleteTx_ok {userId : Uuid} {email : String} {accountIds : List Uuid} {db : Db}
    {r : DeletedCounts × Db} (h : hardDeleteTx userId email accountIds db = .ok r) :
    r.2.accounts = (db.accounts.deleteMany fun _ a => a.userId = userId) ∧
      (r.2.transfers = db.transfers.deleteMany fun _ t => touches accountIds t) ∧
      ∀ id c, db.passwordResets.lookup id = some c → c.userId ≠ userId := by
  unfold hardDeleteTx at h
  obtain ⟨_, db₁, h₁, h⟩ := tx_bind_ok.1 h
  obtain ⟨_, db₂, h₂, h⟩ := tx_bind_ok.1 h
  obtain ⟨_, db₃, h₃, h⟩ := tx_bind_ok.1 h
  obtain ⟨_, db₄, h₄, h⟩ := tx_bind_ok.1 h
  obtain ⟨_, db₅, h₅, h⟩ := tx_bind_ok.1 h
  obtain ⟨_, db₆, h₆, h⟩ := tx_bind_ok.1 h
  obtain ⟨_, db₇, h₇, h⟩ := tx_bind_ok.1 h
  obtain ⟨_, db₈, h₈, h⟩ := tx_bind_ok.1 h
  obtain ⟨_, db₉, h₉, h⟩ := tx_bind_ok.1 h
  obtain ⟨_, db₁₀, h₁₀, h⟩ := tx_bind_ok.1 h
  obtain ⟨_, db₁₁, h₁₁, h⟩ := tx_bind_ok.1 h
  obtain ⟨_, db₁₂, h₁₂, h⟩ := tx_bind_ok.1 h
  obtain ⟨_, db₁₃, h₁₃, h⟩ := tx_bind_ok.1 h
  obtain ⟨_, db₁₄, h₁₄, h⟩ := tx_bind_ok.1 h
  obtain rfl := tx_pure_ok.1 h
  obtain ⟨haccounts, hresets, htransfers⟩ := deleteOfAccounts_ok h₁
  have hdb₁₀ := deleteAccounts_ok h₁₀
  have hdevices := deleteDevices_ok h₁₂
  obtain ⟨hdb₁₃, hclear⟩ := deleteUser_ok h₁₃
  obtain ⟨haccounts', htransfers'⟩ := deleteSignups_ok h₁₄
  -- the other statements are on other tables
  cases h₂
  cases h₃
  cases h₄
  cases h₅
  cases h₆
  cases h₇
  cases h₈
  cases h₉
  cases h₁₁
  cases hdevices
  simp only at hdb₁₀ hdb₁₃ haccounts hresets htransfers haccounts' htransfers' ⊢
  rw [haccounts', htransfers', hdb₁₃]
  simp only [dropUser, hdb₁₀, haccounts, htransfers, true_and]
  intro id c hc howner
  have hmem : c.userId ∈ db.passwordResets.values fun _ c => some c.userId :=
    Table.mem_values.2 ⟨id, c, hc, rfl⟩
  have hreset := hclear .passwordResetUser (by decide) c.userId
    (by simpa only [refs, hdb₁₀, hresets] using hmem)
  simp [howner] at hreset

/-- An accepted call was confirmed, and its transaction went through; any other leaves the world as
it is. -/
def Deletes (toLowerCase : String → String) (c : HardDeleteCall) (w : World) :
    Except Error DeletedCounts → World → Prop
  | .ok counts, w' => ∃ target db, w.db.users.lookup c.targetUserId = some target ∧
      Confirmed toLowerCase c target ∧ w' = { w with db } ∧
      hardDeleteTx c.targetUserId target.email (accountsOf c.targetUserId w.db) w.db =
        .ok (counts, db)
  | .error _, w' => w' = w

theorem hardDelete_deletes (toLowerCase : String → String) (me : ℕ) (c : HardDeleteCall)
    (w : World) : (hardDelete toLowerCase me c).Ensures w (Deletes toLowerCase c w) := by
  unfold hardDelete
  split
  · exact Prog.ensures_throw rfl
  · rename_i hrole
    split
    · exact Prog.ensures_throw rfl
    · rename_i hother
      refine ensures_query ?_
      cases htarget : w.db.users.lookup c.targetUserId with
      | none => exact Prog.ensures_throw rfl
      | some target =>
        simp only [deleteFound]
        split
        · exact Prog.ensures_throw rfl
        · rename_i hmay
          split
          · exact Prog.ensures_throw rfl
          · rename_i hconfirmed
            rw [not_or, not_not] at hconfirmed
            refine ensures_query (ensures_transaction (fun counts db htx => ?_) fun _ _ => rfl)
            refine ⟨target, db, htarget, ⟨?_, hother, by simpa using hmay, hconfirmed.1,
              hconfirmed.2⟩, rfl, htx⟩
            by_contra hneither
            exact hrole (not_or.1 hneither)

theorem mem_accountsOf {userId : Uuid} {db : Db} {a : Uuid} :
    a ∈ accountsOf userId db ↔ ∃ acct, db.accounts.lookup a = some acct ∧ acct.userId = userId := by
  unfold accountsOf
  constructor
  · intro h
    obtain ⟨e, he, rfl⟩ := List.mem_map.1 h
    obtain ⟨hmem, howner⟩ := List.mem_filter.1 he
    exact ⟨e.2, Table.mem_entries_iff.1 hmem, of_decide_eq_true howner⟩
  · rintro ⟨acct, hacct, howner⟩
    refine List.mem_map.2 ⟨⟨a, acct⟩, List.mem_filter.2 ⟨Table.mem_entries_iff.2 hacct, ?_⟩, rfl⟩
    exact decide_eq_true howner

end BankDemo.Admin
