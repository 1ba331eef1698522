import BankDemo.Schema
import BankDemo.Foundations.Interleave

/-!
# The store and what services do to it

`World` is what the services share: the database, the row locks held on accounts, the settlement
queue, the override-rate counters of the cache and the events emitted so far. Services are
programs over it (`Service`): queries and statements are single actions, and the body of a
`prisma.$transaction` is a `Tx`, a computation on the database that either commits as a whole or
leaves no trace (`transaction`). Under Postgres' read-committed isolation the writes of a
transaction become visible together at its commit, and updates of an account row wait for the
row's lock.

The primitives on tables come with the errors of Prisma: `uniqueViolation` (P2002),
`recordNotFound` (P2025) and `foreignKey` (P2003); a query by a key that is `undefined` is refused
(`validation`).
-/

namespace BankDemo

/-- Errors thrown by the services. -/
inductive Error
  | badRequest (message : String)
  | unauthorized (message : String)
  | notFound (message : String)
  | forbidden (message : String)
  | conflict (message : String)
  | balanceWouldGoNegative (projectedBalanceCents : ℤ) (offsetSuggestion : Option (Uuid × ℤ))
  | internal (message : String)
  | uniqueViolation
  | recordNotFound
  | foreignKey
  | validation
  deriving DecidableEq

/-- The text an error carries, as stored in `failureReason`. -/
def Error.message : Error → String
  | .badRequest m | .unauthorized m | .notFound m | .forbidden m | .conflict m | .internal m => m
  | .balanceWouldGoNegative _ _ => "BALANCE_WOULD_GO_NEGATIVE"
  | .uniqueViolation => "P2002"
  | .recordNotFound => "P2025"
  | .foreignKey => "P2003"
  | .validation => "PrismaClientValidationError"

/-- The displayed fields of a transaction, with its override applied. -/
structure EffectiveFields where
  amountCents : ℤ
  occurredAt : Instant
  description : String
  category : TransactionCategory
  status : TransactionStatus
  deriving DecidableEq

/-- The events emitted by the modelled services, with the payload fields listeners read. -/
inductive Event
  | transactionCreated (userId accountId transactionId : Uuid) (amountCents : ℤ)
      (status : TransactionStatus)
  | transactionSettled (userId accountId transactionId transferId : Uuid) (amountCents : ℤ)
  | transactionUpdated (userId accountId transactionId : Uuid)
      (effective : Option EffectiveFields) (hidden : Bool)
  | accountBalanceChanged (userId accountId : Uuid) (balanceCents : ℤ)
  | adminTransferSettled (transferId userId : Uuid) (inflow : Bool) (amountCents : ℤ)
      (kind : TransferKind)
  | adminQueueChanged (transferReviewDelta : ℤ)
  | wireReversedNotice (userId : Uuid) (amountCents : ℤ) (reason : String)
  deriving DecidableEq

/-- A settlement job. Its job id is `settle:<transferId>`, so there is one per transfer. -/
structure Job where
  attemptsMade : ℕ
  attempts : ℕ
  deriving DecidableEq

/-- What the services share. -/
structure World where
  db : Db
  /-- The thread holding the lock on an account row (`SELECT ... FOR UPDATE`). -/
  locks : Uuid → Option ℕ
  settlementQueue : Table Uuid Job
  /-- `override-rate:<actor>:<minute>`. -/
  overrideRate : Table (Uuid × ℤ) ℕ
  events : List Event

/-- A service call, as a program over the world. -/
abbrev Service (α : Type) := Prog World Error α

/-- The body of a database transaction. -/
abbrev Tx (α : Type) := StateT Db (Except Error) α

/-! ## Transactions -/

theorem tx_bind_ok {α β : Type} {x : Tx α} {f : α → Tx β} {db : Db} {r : β × Db} :
    (x >>= f) db = .ok r ↔ ∃ a db₁, x db = .ok (a, db₁) ∧ f a db₁ = .ok r :=
  Prog.body_bind_ok

theorem tx_pure_ok {α : Type} {a : α} {db : Db} {r : α × Db} :
    (pure a : Tx α) db = .ok r ↔ r = (a, db) :=
  Prog.body_pure_ok

theorem tx_throw_ok {α : Type} {e : Error} {db : Db} {r : α × Db} :
    (throw e : Tx α) db ≠ .ok r :=
  Prog.body_throw_ok

namespace Tx

/-- A query inside a transaction. -/
def query {α : Type} (f : Db → α) : Tx α := fun db => .ok (f db, db)

theorem query_bind {α β : Type} (f : Db → α) (k : α → Tx β) (db : Db) :
    (query f >>= k) db = k (f db) db := rfl

/-- `account.update` with `balanceCents: { increment: d }`. -/
def incrementBalance (a : Uuid) (d : ℤ) : Tx Unit := fun db =>
  match db.accounts.lookup a with
  | none => .error .recordNotFound
  | some acct => .ok ((), { db with
      accounts := db.accounts.insert a { acct with balanceCents := acct.balanceCents + d } })

/-- `transaction.create`. -/
def createTransaction (id : Uuid) (row : Transaction) : Tx Unit := fun db =>
  if (db.transactions.lookup id).isSome then .error .uniqueViolation
  else if (db.accounts.lookup row.accountId).isNone then .error .foreignKey
  else .ok ((), { db with transactions := db.transactions.insert id row })

/-- `transaction.update`. -/
def updateTransaction (id : Uuid) (f : Transaction → Transaction) : Tx Unit := fun db =>
  match db.transactions.lookup id with
  | none => .error .recordNotFound
  | some row => .ok ((), { db with transactions := db.transactions.insert id (f row) })

/-- `transaction.updateMany` on an id: nothing happens when the row is gone. -/
def updateManyTransaction (id : Uuid) (f : Transaction → Transaction) : Tx Unit := fun db =>
  match db.transactions.lookup id with
  | none => .ok ((), db)
  | some row => .ok ((), { db with transactions := db.transactions.insert id (f row) })

/-- `transaction.update` on an optional id. -/
def updateTransaction? (id : Option Uuid) (f : Transaction → Transaction) : Tx Unit :=
  match id with
  | some id => updateTransaction id f
  | none => pure ()

/-- `transaction.delete`, which the override of the transaction forbids. -/
def deleteTransaction (id : Uuid) : Tx Unit := fun db =>
  if (db.transactions.lookup id).isNone then .error .recordNotFound
  else if (db.overrides.lookup id).isSome then .error .foreignKey
  else .ok ((), { db with transactions := db.transactions.erase id })

/-- `transfer.create`: the id and the idempotency key are unique. -/
def createTransfer (id : Uuid) (row : Transfer) : Tx Unit := fun db =>
  if (db.transfers.lookup id).isSome then .error .uniqueViolation
  else if (db.transfers.findRow fun t => t.idempotencyKey = row.idempotencyKey).isSome then
    .error .uniqueViolation
  else .ok ((), { db with transfers := db.transfers.insert id row })

/-- `transfer.update`. -/
def updateTransfer (id : Uuid) (f : Transfer → Transfer) : Tx Unit := fun db =>
  match db.transfers.lookup id with
  | none => .error .recordNotFound
  | some row => .ok ((), { db with transfers := db.transfers.insert id (f row) })

/-- A raw `UPDATE "Transfer" ... WHERE id`: nothing happens when the row is gone. -/
def executeUpdateTransfer (id : Uuid) (f : Transfer → Transfer) : Tx Unit := fun db =>
  match db.transfers.lookup id with
  | none => .ok ((), db)
  | some row => .ok ((), { db with transfers := db.transfers.insert id (f row) })

/-- `transactionOverride.upsert`: `update` on the old row, `create` without one. -/
def upsertOverride (id : Uuid) (update : TransactionOverride → TransactionOverride)
    (create : TransactionOverride) : Tx Unit := fun db =>
  match db.overrides.lookup id with
  | some o => .ok ((), { db with overrides := db.overrides.insert id (update o) })
  | none =>
    if (db.transactions.lookup id).isNone then .error .foreignKey
    else .ok ((), { db with overrides := db.overrides.insert id create })

/-- `transactionOverride.delete`. -/
def deleteOverride (id : Uuid) : Tx Unit := fun db =>
  if (db.overrides.lookup id).isNone then .error .recordNotFound
  else .ok ((), { db with overrides := db.overrides.erase id })

/-! What a successful primitive did. -/

theorem incrementBalance_ok {a : Uuid} {d : ℤ} {db : Db} {r : Unit × Db}
    (h : incrementBalance a d db = .ok r) :
    ∃ acct, db.accounts.lookup a = some acct ∧ r.2 = { db with
      accounts := db.accounts.insert a { acct with balanceCents := acct.balanceCents + d } } := by
  unfold incrementBalance at h
  split at h
  · cases h
  · rename_i acct hacct
    cases h
    exact ⟨acct, hacct, rfl⟩

theorem createTransaction_ok {id : Uuid} {row : Transaction} {db : Db} {r : Unit × Db}
    (h : createTransaction id row db = .ok r) :
    db.transactions.lookup id = none ∧
      r.2 = { db with transactions := db.transactions.insert id row } := by
  unfold createTransaction at h
  split at h
  · cases h
  · rename_i hid
    split at h
    · cases h
    · cases h
      exact ⟨by simpa using hid, rfl⟩

theorem updateTransaction_ok {id : Uuid} {f : Transaction → Transaction} {db : Db} {r : Unit × Db}
    (h : updateTransaction id f db = .ok r) : ∃ row, db.transactions.lookup id = some row ∧
      r.2 = { db with transactions := db.transactions.insert id (f row) } := by
  unfold updateTransaction at h
  split at h
  · cases h
  · rename_i row hrow
    cases h
    exact ⟨row, hrow, rfl⟩

theorem updateTransaction?_ok {id : Option Uuid} {f : Transaction → Transaction} {db : Db}
    {r : Unit × Db} (h : updateTransaction? id f db = .ok r) :
    ∃ T, r.2 = { db with transactions := T } ∧ Table.Updated? id f db.transactions T := by
  cases id with
  | none =>
    obtain rfl := tx_pure_ok.1 h
    exact ⟨_, rfl, rfl⟩
  | some p =>
    obtain ⟨row, hrow, hr⟩ := updateTransaction_ok h
    exact ⟨_, hr, row, hrow, rfl⟩

theorem createTransfer_ok {id : Uuid} {row : Transfer} {db : Db} {r : Unit × Db}
    (h : createTransfer id row db = .ok r) :
    db.transfers.lookup id = none ∧
      (db.transfers.findRow fun t => t.idempotencyKey = row.idempotencyKey) = none ∧
      r.2 = { db with transfers := db.transfers.insert id row } := by
  unfold createTransfer at h
  split at h
  · cases h
  · rename_i hid
    split at h
    · cases h
    · rename_i hkey
      cases h
      exact ⟨by simpa using hid, by simpa using hkey, rfl⟩

theorem updateTransfer_ok {id : Uuid} {f : Transfer → Transfer} {db : Db} {r : Unit × Db}
    (h : updateTransfer id f db = .ok r) : ∃ row, db.transfers.lookup id = some row ∧
      r.2 = { db with transfers := db.transfers.insert id (f row) } := by
  unfold updateTransfer at h
  split at h
  · cases h
  · rename_i row hrow
    cases h
    exact ⟨row, hrow, rfl⟩

/-- The override an upsert leaves. -/
theorem upsertOverride_row {id : Uuid} {update : TransactionOverride → TransactionOverride}
    {create : TransactionOverride} {db : Db} {r : Unit × Db}
    (h : upsertOverride id update create db = .ok r) :
    r.2 = { db with overrides :=
      db.overrides.insert id (((db.overrides.lookup id).map update).getD create) } := by
  unfold upsertOverride at h
  split at h
  · rename_i o ho
    cases h
    rw [ho]
    rfl
  · rename_i ho
    split at h
    · cases h
    · cases h
      rw [ho]
      rfl

theorem upsertOverride_ok {id : Uuid} {update : TransactionOverride → TransactionOverride}
    {create : TransactionOverride} {db : Db} {r : Unit × Db}
    (h : upsertOverride id update create db = .ok r) :
    ∃ T O, r.2 = { db with transactions := T, overrides := O } :=
  ⟨_, _, upsertOverride_row h⟩

theorem deleteOverride_ok {id : Uuid} {db : Db} {r : Unit × Db} (h : deleteOverride id db = .ok r) :
    r.2 = { db with overrides := db.overrides.erase id } := by
  unfold deleteOverride at h
  split at h
  · cases h
  · cases h
    rfl

theorem deleteTransaction_ok {id : Uuid} {db : Db} {r : Unit × Db}
    (h : deleteTransaction id db = .ok r) : db.overrides.lookup id = none ∧
      r.2 = { db with transactions := db.transactions.erase id } := by
  unfold deleteTransaction at h
  split at h
  · cases h
  · split at h
    · cases h
    · rename_i ho
      cases h
      exact ⟨by simpa using ho, rfl⟩

theorem executeUpdateTransfer_ok {id : Uuid} {f : Transfer → Transfer} {db : Db} {r : Unit × Db}
    (h : executeUpdateTransfer id f db = .ok r) :
    ∃ T, r.2 = { db with transfers := T } ∧ Table.UpdatedMany id f db.transfers T := by
  unfold executeUpdateTransfer at h
  split at h
  · rename_i hrow
    cases h
    exact ⟨_, rfl, .inr ⟨hrow, rfl⟩⟩
  · rename_i row hrow
    cases h
    exact ⟨_, rfl, .inl ⟨row, hrow, rfl⟩⟩

theorem updateManyTransaction_ok {id : Uuid} {f : Transaction → Transaction} {db : Db}
    {r : Unit × Db} (h : updateManyTransaction id f db = .ok r) :
    ∃ T, r.2 = { db with transactions := T } ∧ Table.UpdatedMany id f db.transactions T := by
  unfold updateManyTransaction at h
  split at h
  · rename_i hrow
    cases h
    exact ⟨_, rfl, .inr ⟨hrow, rfl⟩⟩
  · rename_i row hrow
    cases h
    exact ⟨_, rfl, .inl ⟨row, hrow, rfl⟩⟩

end Tx

/-! ## Actions -/

/-- No other thread holds a lock on these accounts. -/
def World.free (me : ℕ) (rows : List Uuid) (w : World) : Bool :=
  rows.all fun a => w.locks a == none || w.locks a == some me

/-- A query outside a transaction. -/
def query {α : Type} (f : Db → α) : Service α := .read fun w => f w.db

/-- `account.findFirst`: an active account of the user. -/
def Db.findActive (db : Db) (userId : Uuid) (type : AccountType) : Option (Uuid × Account) :=
  db.accounts.findRow fun a => a.userId = userId ∧ a.type = type ∧ a.status = .active

/-- Commit `body`, whose account updates are on `rows`; an error leaves the database as it was. -/
def transaction {α : Type} (me : ℕ) (rows : List Uuid) (body : Tx α) : Service α :=
  .attempt (World.free me rows) fun w => match body w.db with
    | .ok r => .ok (r.1, { w with db := r.2 })
    | .error e => .error e

/-- `SELECT ... FOR UPDATE` on an account row. -/
def lockAccount (me : ℕ) (a : Uuid) : Service Unit :=
  .modify (World.free me [a]) fun w => { w with locks := Function.update w.locks a (some me) }

/-- The end of the transaction that held the lock. -/
def unlockAccount (a : Uuid) : Service Unit :=
  .modify (fun _ => true) fun w => { w with locks := Function.update w.locks a none }

/-- A transaction that locks the row of `a` first: the lock is released at its end, whether it
commits or rolls back. -/
def withLock {α : Type} (me : ℕ) (a : Uuid) (body : Service α) : Service α := do
  lockAccount me a
  let r ← tryCatch body fun e => do
    unlockAccount a
    throw e
  unlockAccount a
  return r

/-- Change the settlement queue. -/
def onQueue (f : Table Uuid Job → Table Uuid Job) : Service Unit :=
  .modify (fun _ => true) fun w => { w with settlementQueue := f w.settlementQueue }

/-- Emit an event. -/
def emit (e : Event) : Service Unit :=
  .modify (fun _ => true) fun w => { w with events := w.events ++ [e] }

/-! ## Services alone -/

section Ensures

variable {α β : Type} {w : World}

theorem ensures_query {Q : Except Error β → World → Prop} {f : Db → α} {k : α → Service β}
    (h : (k (f w.db)).Ensures w Q) : (query f >>= k).Ensures w Q := h

theorem ensures_emit {Q : Except Error β → World → Prop} {e : Event} {k : Unit → Service β}
    (h : (k ()).Ensures { w with events := w.events ++ [e] } Q) : (emit e >>= k).Ensures w Q := h

theorem ensures_transaction {Q : Except Error α → World → Prop} {me : ℕ} {rows : List Uuid}
    {body : Tx α} (hok : ∀ a db, body w.db = .ok (a, db) → Q (.ok a) { w with db })
    (herr : ∀ e, body w.db = .error e → Q (.error e) w) :
    (transaction me rows body).Ensures w Q := by
  refine Prog.ensures_attempt (fun a w' hbody => ?_) fun e hbody => ?_
  · cases hb : body w.db with
    | error e =>
      rw [hb] at hbody
      cases hbody
    | ok r =>
      rw [hb] at hbody
      cases hbody
      exact hok r.1 r.2 hb
  · cases hb : body w.db with
    | error e' =>
      rw [hb] at hbody
      cases hbody
      exact herr e hb
    | ok r =>
      rw [hb] at hbody
      cases hbody

/-- A transaction under a lock ends as its body does, and the lock is released. -/
theorem ensures_withLock {Q : Except Error α → World → Prop} {me : ℕ} {a : Uuid} {body : Service α}
    (hbody : body.Ensures { w with locks := Function.update w.locks a (some me) } fun r w' =>
      Q r { w' with locks := Function.update w'.locks a none }) :
    (withLock me a body).Ensures w Q := by
  unfold Prog.Ensures at hbody ⊢
  simp only [withLock, lockAccount, unlockAccount, Prog.run_bind, Prog.run_tryCatch,
    Prog.run_modify]
  cases hrun : body.run { w with locks := Function.update w.locks a (some me) } with
  | mk r w' =>
    rw [hrun] at hbody
    cases r with
    | ok r => exact hbody
    | error e => exact hbody

end Ensures

/-! ## The action of a transaction -/

section Transaction

variable {α : Type} {me : ℕ} {rows : List Uuid} {body : Tx α}

theorem transaction_each {R : World → World → Prop} (hrefl : ∀ w, R w w)
    (hbody : ∀ (w : World) r, body w.db = .ok r → R w { w with db := r.2 }) :
    (transaction me rows body).Each R := by
  refine Prog.each_attempt hrefl fun w r hr => ?_
  cases hb : body w.db with
  | error e => simp [hb] at hr
  | ok r' =>
    simp only [hb, Except.ok.injEq] at hr
    subst hr
    exact hbody w r' hb

theorem transaction_does {G : List (World × World) → Prop} {own : List (World × World)}
    {Q : List (World × World) → Except Error α → Prop}
    (hok : ∀ (w : World) r, body w.db = .ok r →
      G ((w, { w with db := r.2 }) :: own) ∧ Q ((w, { w with db := r.2 }) :: own) (.ok r.1))
    (herr : ∀ (w : World) e, G ((w, w) :: own) ∧ Q ((w, w) :: own) (.error e)) :
    (transaction me rows body).Does G Q own := by
  refine Prog.does_attempt (fun w a w' _ hb => ?_) fun w e _ _ => herr w e
  cases hbody : body w.db with
  | error e => simp [hbody] at hb
  | ok r =>
    simp only [hbody, Except.ok.injEq, Prod.mk.injEq] at hb
    obtain ⟨rfl, rfl⟩ := hb
    exact hok w r hbody

end Transaction

/-! ## Services that only read -/

/-- Every action leaves the world as it is. -/
def Reads {α : Type} (p : Service α) : Prop := p.Each fun w w' => w' = w

theorem reads_pure {α : Type} (a : α) : Reads (pure a : Service α) := Prog.each_pure a

theorem reads_throw {α : Type} (e : Error) : Reads (throw e : Service α) := Prog.each_throw e

theorem reads_query {α : Type} (f : Db → α) : Reads (query f) := Prog.each_read _ fun _ => rfl

theorem reads_bind {α β : Type} {p : Service α} {k : α → Service β} (hp : Reads p)
    (hk : ∀ a, Reads (k a)) : Reads (p >>= k) :=
  Prog.each_bind hp hk

theorem Reads.run {α : Type} {p : Service α} (hp : Reads p) (w : World) : (p.run w).2 = w :=
  Prog.Each.run hp (fun _ => rfl) (fun h h' => h'.trans h) w

/-! ## Quiet services -/

/-- Every action leaves the database and the locks as they are. -/
def Quiet {α : Type} (p : Service α) : Prop :=
  p.Each fun w w' => w'.db = w.db ∧ w'.locks = w.locks

theorem Reads.quiet {α : Type} {p : Service α} (hp : Reads p) : Quiet p :=
  Prog.Each.imp hp fun _ _ h => by rw [h]; exact ⟨rfl, rfl⟩

theorem quiet_pure {α : Type} (a : α) : Quiet (pure a : Service α) := Prog.each_pure a

theorem quiet_throw {α : Type} (e : Error) : Quiet (throw e : Service α) := Prog.each_throw e

theorem quiet_query {α : Type} (f : Db → α) : Quiet (query f) :=
  Prog.each_read _ fun _ => ⟨rfl, rfl⟩

theorem quiet_emit (e : Event) : Quiet (emit e) := Prog.each_modify fun _ => ⟨rfl, rfl⟩

theorem quiet_onQueue (f : Table Uuid Job → Table Uuid Job) : Quiet (onQueue f) :=
  Prog.each_modify fun _ => ⟨rfl, rfl⟩

theorem quiet_bind {α β : Type} {p : Service α} {k : α → Service β} (hp : Quiet p)
    (hk : ∀ a, Quiet (k a)) : Quiet (p >>= k) :=
  Prog.each_bind hp hk

/-- Every action leaves all but the events as it is. -/
def OnlyEmits {α : Type} (p : Service α) : Prop :=
  p.Each fun w w' => ∃ events, w' = { w with events }

theorem OnlyEmits.quiet {α : Type} {p : Service α} (hp : OnlyEmits p) : Quiet p := by
  refine Prog.Each.imp hp fun w w' h => ?_
  obtain ⟨events, rfl⟩ := h
  exact ⟨rfl, rfl⟩

theorem onlyEmits_pure {α : Type} (a : α) : OnlyEmits (pure a : Service α) := Prog.each_pure a

theorem onlyEmits_throw {α : Type} (e : Error) : OnlyEmits (throw e : Service α) :=
  Prog.each_throw e

theorem onlyEmits_query {α : Type} (f : Db → α) : OnlyEmits (query f) :=
  Prog.each_read _ fun _ => ⟨_, rfl⟩

theorem onlyEmits_emit (e : Event) : OnlyEmits (emit e) := Prog.each_modify fun _ => ⟨_, rfl⟩

theorem onlyEmits_bind {α β : Type} {p : Service α} {k : α → Service β} (hp : OnlyEmits p)
    (hk : ∀ a, OnlyEmits (k a)) : OnlyEmits (p >>= k) :=
  Prog.each_bind hp hk

/-- The database is the same. -/
def SameDb (w w' : World) : Prop := w'.db = w.db

theorem Quiet.failsClean_bind {α β : Type} {p : Service α} {k : α → Service β} (hp : Quiet p)
    (hk : ∀ a, (k a).FailsClean SameDb) : (p >>= k).FailsClean SameDb :=
  Prog.Each.failsClean_bind (Prog.Each.imp hp fun _ _ h => h.1) hk

/-- A transaction under a lock fails clean if its body does. -/
theorem withLock_failsClean {α : Type} {me : ℕ} {a : Uuid} {body : Service α}
    (hbody : body.FailsClean SameDb) : (withLock me a body).FailsClean SameDb := by
  refine Prog.Each.failsClean_bind (Prog.each_modify fun _ => rfl) fun _ => ?_
  refine Prog.FailsClean.bind (Prog.FailsClean.tryCatch hbody fun e => ?_) fun r => ?_
  · exact Prog.Each.failsClean_bind (Prog.each_modify fun _ => rfl) fun _ => trivial
  · exact Prog.neverFails_bind Prog.neverFails_modify fun _ => Prog.neverFails_pure r

theorem Quiet.run {α : Type} {p : Service α} (hp : Quiet p) (w : World) :
    (p.run w).2.db = w.db :=
  (Prog.Each.run hp (fun _ => ⟨rfl, rfl⟩)
    (fun h h' => ⟨h'.1.trans h.1, h'.2.trans h.2⟩) w).1

end BankDemo
