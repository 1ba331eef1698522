import BankDemo.Transfers.Service

/-!
# Transactions edited by admins

`AdminTransactionsService` creates, overrides, hides, shifts and deletes transactions of a
customer's feed. An edit that changes the displayed amount moves the account's balance by the
difference and writes a compensating entry against the adjustments account (`adjust`), in the
transaction of the edit.

`Adjusted` says what `adjust` did. The specifications of the edits (`patchTx_ok`, `createTx_ok`,
`deleteTx_ok`, `clearTx_ok`) say that nothing else moved money.
-/

namespace BankDemo.Admin

open Ledger Transfers

/-! ## Displayed fields -/

/-- A transaction with its account and its override: `findWithOverride`. -/
structure TransactionWithOverride where
  row : Transaction
  account : Account
  override : Option TransactionOverride

/-- `AdminTransactionsRepository.findWithOverride`. -/
def findWithOverride (id : Uuid) (db : Db) : Option TransactionWithOverride := do
  let row ← db.transactions.lookup id
  let account ← db.accounts.lookup row.accountId
  return ⟨row, account, db.overrides.lookup id⟩

def txStatusToOverrideStatus : TransactionStatus → OverrideStatus
  | .pending => .pending
  | .posted => .settled
  | .declined => .declined
  | .reversed => .reversed

def overrideStatusToTxStatus : OverrideStatus → TransactionStatus
  | .pending => .pending
  | .settled => .posted
  | .declined => .declined
  | .reversed => .reversed
  | .hidden => .reversed

/-- `effectiveOf`. -/
def effectiveOf (t : TransactionWithOverride) : EffectiveFields where
  amountCents := (t.override.bind TransactionOverride.overrideAmountCents).getD t.row.amountCents
  occurredAt := (t.override.bind TransactionOverride.overrideOccurredAt).getD t.row.occurredAt
  description := (t.override.bind TransactionOverride.overrideDescription).getD t.row.description
  category := (t.override.bind TransactionOverride.overrideCategory).getD t.row.category
  status := ((t.override.bind TransactionOverride.overrideStatus).map
    overrideStatusToTxStatus).getD t.row.status

/-! ## Compensating entries -/

/-- `meta` of the adjustments account. -/
def adjustmentsMeta : PostingMeta := ⟨none, some .expense, some .debit⟩

/-- The postings of a compensating entry. -/
def compensatingLegs (accountId : Uuid) (delta : ℤ) : List PostingInput :=
  if delta > 0 then
    [⟨.adjustments, .debit, delta, some adjustmentsMeta⟩,
      credit (accountSubLedgerCode accountId) delta]
  else
    [debit (accountSubLedgerCode accountId) (-delta),
      ⟨.adjustments, .credit, -delta, some adjustmentsMeta⟩]

theorem net_compensatingLegs (accountId a : Uuid) (delta : ℤ) :
    DoubleEntry.net (legs (compensatingLegs accountId delta)) (.account a) =
      if a = accountId then delta else 0 := by
  unfold compensatingLegs accountSubLedgerCode
  split
  · rw [credit, net_pair]
    simp [eq_comm]
  · rw [debit, net_pair]
    simp only [reduceCtorEq, if_false, LedgerCode.account.injEq]
    by_cases ha : a = accountId
    · simp [ha]
    · have ha' : accountId ≠ a := fun h => ha h.symm
      simp [ha, ha']

theorem positive_compensatingLegs {accountId : Uuid} {delta : ℤ} (h : delta ≠ 0) :
    Positive (legs (compensatingLegs accountId delta)) := by
  unfold compensatingLegs
  split
  · rename_i hpos
    exact positive_pair hpos hpos
  · have hpos : 0 < -delta := by omega
    exact positive_pair hpos hpos

/-- `writeCompensatingEntry`. -/
def writeCompensatingEntry (accountId userId : Uuid) (delta : ℤ) (referenceId : Uuid)
    (now : Instant) : Tx ℕ := do
  ensureAccountLedger accountId userId
  let sign := if delta ≥ 0 then "+" else ""
  post {
    description := s!"Override adjustment {sign}{delta}"
    occurredAt := now
    source := .override referenceId
    referenceId := some referenceId
    postings := compensatingLegs accountId delta }

/-- Move the balance by `delta`, with its entry; nothing for zero. -/
def adjust (accountId userId : Uuid) (delta : ℤ) (referenceId : Uuid) (now : Instant) :
    Tx (Option ℕ) :=
  if delta = 0 then return none
  else do
    let id ← writeCompensatingEntry accountId userId delta referenceId now
    Tx.incrementBalance accountId delta
    return some id

/-- The account rows an adjustment updates. -/
def adjustedRows (accountId : Uuid) (delta : ℤ) : List Uuid := if delta = 0 then [] else [accountId]

/-- What an edit did to money: the balance of one account moved, with an entry for it, or, for
zero, neither did. Transfers are not touched. -/
structure Adjusted (accountId : Uuid) (delta : ℤ) (referenceId : Uuid) (db db' : Db) : Prop where
  zero : delta = 0 → db'.accounts = db.accounts ∧ db'.ledgerAccounts = db.ledgerAccounts ∧
    db'.journal = db.journal
  nonzero : delta ≠ 0 → Credited accountId delta db db' ∧
    Booked (.override referenceId) (legs (compensatingLegs accountId delta)) db db'
  transfers : db'.transfers = db.transfers

theorem adjust_ok {accountId userId : Uuid} {delta : ℤ} {referenceId : Uuid} {now : Instant}
    {db : Db} {r : Option ℕ × Db} (h : adjust accountId userId delta referenceId now db = .ok r) :
    Adjusted accountId delta referenceId db r.2 := by
  unfold adjust at h
  by_cases hd : delta = 0
  · simp only [hd, if_true] at h
    obtain rfl := tx_pure_ok.1 h
    exact ⟨fun _ => ⟨rfl, rfl, rfl⟩, fun hne => absurd hd hne, rfl⟩
  · simp only [hd, if_false] at h
    obtain ⟨_, db₂, h₂, h⟩ := tx_bind_ok.1 h
    obtain ⟨_, db₁, h₁, h₂⟩ := tx_bind_ok.1 h₂
    obtain ⟨_, db₃, h₃, h⟩ := tx_bind_ok.1 h
    obtain rfl := tx_pure_ok.1 h
    obtain ⟨L, hdb₁, hL, -⟩ := ensureAccountLedger_ok h₁
    have hpost : Posted _ db₁ db₂ := post_ok h₂
    obtain ⟨L', -, -, hdb₂⟩ := hpost.write
    obtain ⟨acct, hacct, hdb₃⟩ := Tx.incrementBalance_ok h₃
    simp only at hdb₁ hdb₂ hdb₃ ⊢
    subst hdb₁ hdb₂ hdb₃
    have hbooked : Booked _ _ db _ := hpost.booked hL rfl
    exact ⟨fun h0 => absurd h0 hd, fun _ => ⟨⟨acct, hacct, rfl⟩, hbooked.of_eq rfl rfl⟩, rfl⟩

theorem Adjusted.balance {a : Uuid} {d : ℤ} {id : Uuid} {db db' : Db}
    (h : Adjusted a d id db db') (x : Uuid) :
    db'.balance x = db.balance x + if a = x then d else 0 := by
  by_cases hd : d = 0
  · rw [balance_of_accounts_eq (h.zero hd).1, hd]
    simp
  · have hcredited := (h.nonzero hd).1.balance x
    simp only [eq_comm] at hcredited ⊢
    exact hcredited

/-- An adjustment does not touch the feed. -/
theorem adjust_feed {accountId userId : Uuid} {delta : ℤ} {referenceId : Uuid} {now : Instant}
    {db : Db} {r : Option ℕ × Db} (h : adjust accountId userId delta referenceId now db = .ok r) :
    r.2.transactions = db.transactions ∧ r.2.overrides = db.overrides := by
  unfold adjust at h
  by_cases hd : delta = 0
  · simp only [hd, if_true] at h
    obtain rfl := tx_pure_ok.1 h
    exact ⟨rfl, rfl⟩
  · simp only [hd, if_false] at h
    obtain ⟨_, db₂, h₂, h⟩ := tx_bind_ok.1 h
    obtain ⟨_, db₁, h₁, h₂⟩ := tx_bind_ok.1 h₂
    obtain ⟨_, db₃, h₃, h⟩ := tx_bind_ok.1 h
    obtain rfl := tx_pure_ok.1 h
    obtain ⟨L, hdb₁, -, -⟩ := ensureAccountLedger_ok h₁
    have hpost : Posted _ db₁ db₂ := post_ok h₂
    obtain ⟨L', -, -, hdb₂⟩ := hpost.write
    obtain ⟨acct, -, hdb₃⟩ := Tx.incrementBalance_ok h₃
    simp only at hdb₁ hdb₂ hdb₃ ⊢
    rw [hdb₃, hdb₂, hdb₁]
    exact ⟨rfl, rfl⟩

/-- Changes of the feed before or after an adjustment do not matter to it. -/
theorem Adjusted.congr {accountId : Uuid} {delta : ℤ} {referenceId : Uuid} {db db₁ db₂ db' : Db}
    (h : Adjusted accountId delta referenceId db₁ db₂)
    (h₁ : ∃ T O, db₁ = { db with transactions := T, overrides := O })
    (h₂ : ∃ T O, db' = { db₂ with transactions := T, overrides := O }) :
    Adjusted accountId delta referenceId db db' := by
  obtain ⟨T₁, O₁, rfl⟩ := h₁
  obtain ⟨T₂, O₂, rfl⟩ := h₂
  refine ⟨h.zero, fun hne => ?_, h.transfers⟩
  obtain ⟨hcredited, hbooked⟩ := h.nonzero hne
  refine ⟨hcredited, hbooked.extends_, hbooked.covered, hbooked.two_le, hbooked.balanced, ?_⟩
  exact hbooked.journal

/-! ## The transactions -/

/-- A call: who asks, about what, when, and the reason given. -/
structure EditCall where
  actorUserId : Uuid
  transactionId : Uuid
  reason : String
  now : Instant

structure PatchDto where
  amountCents : Option ℤ
  occurredAt : Option Instant
  description : Option String
  category : Option TransactionCategory
  status : Option TransactionStatus
  forceAllowNegative : Bool

/-- The amount after a patch. -/
def patchAmount (dto : PatchDto) (t : TransactionWithOverride) : ℤ :=
  dto.amountCents.getD ((t.override.bind TransactionOverride.overrideAmountCents).getD
    t.row.amountCents)

/-- The change of the balance by a patch. An override of zero does not count as one. -/
def patchDelta (dto : PatchDto) (t : TransactionWithOverride) : ℤ :=
  let overridden := match t.override.bind TransactionOverride.overrideAmountCents with
    | some x => if x ≠ 0 then x - t.row.amountCents else 0
    | none => 0
  patchAmount dto t - t.row.amountCents - overridden

/-- The override a patch stores. -/
def patchOverride (c : EditCall) (dto : PatchDto) (old : Option TransactionOverride)
    (compensatingEntryId : Option ℕ) : TransactionOverride where
  overrideAmountCents := dto.amountCents <|> old.bind TransactionOverride.overrideAmountCents
  overrideOccurredAt := dto.occurredAt <|> old.bind TransactionOverride.overrideOccurredAt
  overrideDescription := dto.description <|> old.bind TransactionOverride.overrideDescription
  overrideCategory := dto.category <|> old.bind TransactionOverride.overrideCategory
  overrideStatus := (dto.status.map txStatusToOverrideStatus) <|>
    old.bind TransactionOverride.overrideStatus
  compensatingEntryId := compensatingEntryId <|>
    old.bind TransactionOverride.compensatingEntryId
  appliedByUserId := c.actorUserId
  reason := some c.reason

/-- The transaction of `patch`. -/
def patchTx (c : EditCall) (dto : PatchDto) (t : TransactionWithOverride) : Tx Unit := do
  let entry ← adjust t.row.accountId t.account.userId (patchDelta dto t) c.transactionId c.now
  let data := patchOverride c dto t.override entry
  Tx.upsertOverride c.transactionId (fun _ => data) data

/-- `CreateAdminTransactionDto`. -/
structure CreateDto where
  accountId : Uuid
  amountCents : Option ℤ
  occurredAt : Instant
  description : String
  category : TransactionCategory
  status : TransactionStatus
  kind : Option TransactionKind
  forceAllowNegative : Bool

/-- The row `create` adds. -/
def createdRow (dto : CreateDto) (amount : ℤ) : Transaction where
  accountId := dto.accountId
  kind := dto.kind.getD .adjustment
  status := dto.status
  amountCents := amount
  description := dto.description
  category := dto.category
  note := none
  occurredAt := dto.occurredAt
  postedAt := if dto.status = .posted then some dto.occurredAt else none
  metadata := none

/-- The transaction of `create`. -/
def createTx (c : EditCall) (dto : CreateDto) (account : Account) (amount : ℤ) : Tx Unit := do
  Tx.createTransaction c.transactionId (createdRow dto amount)
  let _ ← adjust dto.accountId account.userId amount c.transactionId c.now
  pure ()

/-- Delete an override that was read. -/
def deleteRead (id : Uuid) (override : Option TransactionOverride) : Tx Unit :=
  if override.isSome then Tx.deleteOverride id else pure ()

/-- The transaction of `delete`. -/
def deleteTx (c : EditCall) (t : TransactionWithOverride) : Tx Unit := do
  let _ ← adjust t.row.accountId t.account.userId (-(effectiveOf t).amountCents) c.transactionId
    c.now
  deleteRead c.transactionId t.override
  Tx.deleteTransaction c.transactionId

/-- What the override of a transaction adds to its amount. -/
def overrideDelta (t : TransactionWithOverride) : ℤ :=
  match t.override.bind TransactionOverride.overrideAmountCents with
  | some x => x - t.row.amountCents
  | none => 0

/-- The transaction of `clearOverride`. -/
def clearTx (c : EditCall) (t : TransactionWithOverride) : Tx Unit := do
  let _ ← adjust t.row.accountId t.account.userId (-overrideDelta t) c.transactionId c.now
  Tx.deleteOverride c.transactionId

theorem patchTx_ok {c : EditCall} {dto : PatchDto} {t : TransactionWithOverride} {db : Db}
    {r : Unit × Db} (h : patchTx c dto t db = .ok r) :
    Adjusted t.row.accountId (patchDelta dto t) c.transactionId db r.2 := by
  unfold patchTx at h
  obtain ⟨_, db₁, h₁, h⟩ := tx_bind_ok.1 h
  exact (adjust_ok h₁).congr ⟨_, _, rfl⟩ (Tx.upsertOverride_ok h)

/-- What a patch does to the feed. -/
theorem patchTx_feed {c : EditCall} {dto : PatchDto} {t : TransactionWithOverride} {db : Db}
    {r : Unit × Db} (h : patchTx c dto t db = .ok r) : r.2.transactions = db.transactions ∧
      ∃ entry, r.2.overrides =
        db.overrides.insert c.transactionId (patchOverride c dto t.override entry) := by
  unfold patchTx at h
  obtain ⟨entry, db₁, h₁, h⟩ := tx_bind_ok.1 h
  obtain ⟨hT, hO⟩ := adjust_feed h₁
  have hrow := Tx.upsertOverride_row h
  simp only at hT hO
  rw [hrow]
  refine ⟨hT, entry, ?_⟩
  simp only [hO]
  cases db.overrides.lookup c.transactionId <;> rfl

theorem createTx_ok {c : EditCall} {dto : CreateDto} {account : Account} {amount : ℤ} {db : Db}
    {r : Unit × Db} (h : createTx c dto account amount db = .ok r) :
    Adjusted dto.accountId amount c.transactionId db r.2 := by
  unfold createTx at h
  obtain ⟨_, db₁, h₁, h⟩ := tx_bind_ok.1 h
  obtain ⟨_, db₂, h₂, h⟩ := tx_bind_ok.1 h
  obtain rfl := tx_pure_ok.1 h
  obtain ⟨-, hdb₁⟩ := Tx.createTransaction_ok h₁
  exact (adjust_ok h₂).congr ⟨_, _, hdb₁⟩ ⟨_, _, rfl⟩

/-- What a creation does to the feed. -/
theorem createTx_feed {c : EditCall} {dto : CreateDto} {account : Account} {amount : ℤ} {db : Db}
    {r : Unit × Db} (h : createTx c dto account amount db = .ok r) :
    Table.Created c.transactionId (createdRow dto amount) db.transactions r.2.transactions ∧
      r.2.overrides = db.overrides := by
  unfold createTx at h
  obtain ⟨_, db₁, h₁, h⟩ := tx_bind_ok.1 h
  obtain ⟨_, db₂, h₂, h⟩ := tx_bind_ok.1 h
  obtain rfl := tx_pure_ok.1 h
  obtain ⟨hid, hdb₁⟩ := Tx.createTransaction_ok h₁
  obtain ⟨hT, hO⟩ := adjust_feed h₂
  simp only at hdb₁ hT hO ⊢
  rw [hT, hO, hdb₁]
  exact ⟨⟨hid, rfl⟩, rfl⟩

theorem deleteRead_ok {id : Uuid} {o : Option TransactionOverride} {db : Db} {r : Unit × Db}
    (h : deleteRead id o db = .ok r) : r.2 = { db with
      overrides := if o.isSome then db.overrides.erase id else db.overrides } := by
  unfold deleteRead at h
  by_cases ho : o.isSome
  · simp only [ho, if_true] at h ⊢
    exact Tx.deleteOverride_ok h
  · simp only [ho] at h
    obtain rfl := tx_pure_ok.1 h
    simp [ho]

theorem deleteTx_ok {c : EditCall} {t : TransactionWithOverride} {db : Db} {r : Unit × Db}
    (h : deleteTx c t db = .ok r) :
    Adjusted t.row.accountId (-(effectiveOf t).amountCents) c.transactionId db r.2 := by
  unfold deleteTx at h
  obtain ⟨_, db₁, h₁, h⟩ := tx_bind_ok.1 h
  obtain ⟨_, db₂, h₂, h⟩ := tx_bind_ok.1 h
  have hdb₂ := deleteRead_ok h₂
  obtain ⟨-, hr⟩ := Tx.deleteTransaction_ok h
  simp only at hdb₂
  subst hdb₂
  exact (adjust_ok h₁).congr ⟨_, _, rfl⟩ ⟨_, _, hr⟩

/-- What a deletion does to the feed: the row and its override are gone. -/
theorem deleteTx_feed {c : EditCall} {t : TransactionWithOverride} {db : Db} {r : Unit × Db}
    (h : deleteTx c t db = .ok r) : r.2.transactions = db.transactions.erase c.transactionId ∧
      (r.2.overrides = db.overrides.erase c.transactionId ∨ r.2.overrides = db.overrides) ∧
      r.2.overrides.lookup c.transactionId = none := by
  unfold deleteTx at h
  obtain ⟨_, db₁, h₁, h⟩ := tx_bind_ok.1 h
  obtain ⟨_, db₂, h₂, h⟩ := tx_bind_ok.1 h
  obtain ⟨hT, hO⟩ := adjust_feed h₁
  have hdb₂ := deleteRead_ok h₂
  obtain ⟨hnone, hr⟩ := Tx.deleteTransaction_ok h
  simp only at hT hO hdb₂ hr
  rw [hdb₂] at hnone hr
  rw [hr]
  simp only [hO] at hnone
  refine ⟨by simp only [hT], ?_, by simp only [hO]; exact hnone⟩
  simp only [hO]
  split
  · exact .inl rfl
  · exact .inr rfl

theorem clearTx_ok {c : EditCall} {t : TransactionWithOverride} {db : Db} {r : Unit × Db}
    (h : clearTx c t db = .ok r) :
    Adjusted t.row.accountId (-overrideDelta t) c.transactionId db r.2 := by
  unfold clearTx at h
  obtain ⟨_, db₁, h₁, h⟩ := tx_bind_ok.1 h
  exact (adjust_ok h₁).congr ⟨_, _, rfl⟩ ⟨_, _, Tx.deleteOverride_ok h⟩

/-- What the removal of an override does to the feed. -/
theorem clearTx_feed {c : EditCall} {t : TransactionWithOverride} {db : Db} {r : Unit × Db}
    (h : clearTx c t db = .ok r) : r.2.transactions = db.transactions ∧
      r.2.overrides = db.overrides.erase c.transactionId := by
  unfold clearTx at h
  obtain ⟨_, db₁, h₁, h⟩ := tx_bind_ok.1 h
  obtain ⟨hT, hO⟩ := adjust_feed h₁
  simp only at hT hO
  rw [Tx.deleteOverride_ok h]
  exact ⟨hT, by simp only [hO]⟩

/-! ## The service -/

/-- The key of a rate counter. -/
def rateKey (actorUserId : Uuid) (now : Instant) : Uuid × ℤ := (actorUserId, now / 60000)

/-- `assertRate`: the counter is read and, later, set. -/
def assertRate (env : Env) (actorUserId : Uuid) (now : Instant) : Service Unit := do
  let recent ← .read fun w => (w.overrideRate.lookup (rateKey actorUserId now)).getD 0
  if env.overrideRateLimit ≤ recent then throw (.forbidden "Override rate limit exceeded")
  else .modify (fun _ => true) fun w =>
    { w with overrideRate := w.overrideRate.insert (rateKey actorUserId now) (recent + 1) }

/-- `findWithOverride`, which has to find the row. -/
def readTransaction (id : Uuid) (error : Error) : Service TransactionWithOverride := do
  let row ← query (findWithOverride id)
  match row with
  | some t => return t
  | none => throw error

/-- Reading a property of a row that is gone. -/
def rowGone : Error := .internal "Cannot read properties of null"

/-- `emitTxUpdated`. -/
def emitTxUpdated (id : Uuid) (t : TransactionWithOverride) (hidden : Bool) : Service Unit := do
  let account ← query fun db => db.accounts.lookup t.row.accountId
  match account with
  | none => pure ()
  | some a => emit (.transactionUpdated a.userId t.row.accountId id
      (if hidden then none else some (effectiveOf t)) hidden)

/-- `emitBalance`, after a change of the balance. -/
def emitBalanceIf (changed : Bool) (accountId : Uuid) : Service Unit :=
  if changed then emitBalance accountId else pure ()

/-- Refuse a change that would make the balance negative. -/
def checkProjected (account : Account) (delta : ℤ) (suggestion : Option (Uuid × ℤ)) :
    Service Unit :=
  if account.balanceCents + delta < 0 then
    throw (.balanceWouldGoNegative (account.balanceCents + delta)
      (suggestion.map fun s => (s.1, s.2 - (account.balanceCents + delta))))
  else pure ()

/-- The check of `patch`, on the balance at that moment. -/
def checkPatch (c : EditCall) (dto : PatchDto) (t : TransactionWithOverride) : Service Unit :=
  if patchDelta dto t ≠ 0 ∧ dto.forceAllowNegative = false then do
    let account ← query fun db => db.accounts.lookup t.row.accountId
    match account with
    | none => throw (.notFound "Account not found")
    | some a =>
      checkProjected a (patchDelta dto t) (some (c.transactionId, patchAmount dto t))
  else pure ()

/-! The checks and the events leave all but the events alone, and the counter leaves the database. -/

theorem quiet_assertRate (env : Env) (actorUserId : Uuid) (now : Instant) :
    Quiet (assertRate env actorUserId now) := by
  refine quiet_bind (Prog.each_read _ fun _ => ⟨rfl, rfl⟩) fun recent => ?_
  split
  · exact quiet_throw _
  · exact Prog.each_modify fun _ => ⟨rfl, rfl⟩

theorem onlyEmits_readTransaction (id : Uuid) (e : Error) : OnlyEmits (readTransaction id e) := by
  refine onlyEmits_bind (onlyEmits_query _) fun row => ?_
  cases row with
  | none => exact onlyEmits_throw e
  | some t => exact onlyEmits_pure t

theorem quiet_readTransaction (id : Uuid) (e : Error) : Quiet (readTransaction id e) :=
  (onlyEmits_readTransaction id e).quiet

theorem onlyEmits_emitTxUpdated (id : Uuid) (t : TransactionWithOverride) (hidden : Bool) :
    OnlyEmits (emitTxUpdated id t hidden) := by
  refine onlyEmits_bind (onlyEmits_query _) fun account => ?_
  cases account with
  | none => exact onlyEmits_pure ()
  | some a => exact onlyEmits_emit _

theorem quiet_emitTxUpdated (id : Uuid) (t : TransactionWithOverride) (hidden : Bool) :
    Quiet (emitTxUpdated id t hidden) :=
  (onlyEmits_emitTxUpdated id t hidden).quiet

theorem onlyEmits_emitBalanceIf (changed : Bool) (a : Uuid) : OnlyEmits (emitBalanceIf changed a) := by
  unfold emitBalanceIf
  split
  · exact onlyEmits_emitBalance a
  · exact onlyEmits_pure ()

theorem quiet_emitBalanceIf (changed : Bool) (a : Uuid) : Quiet (emitBalanceIf changed a) :=
  (onlyEmits_emitBalanceIf changed a).quiet

theorem onlyEmits_checkProjected (account : Account) (delta : ℤ) (s : Option (Uuid × ℤ)) :
    OnlyEmits (checkProjected account delta s) := by
  unfold checkProjected
  split
  · exact onlyEmits_throw _
  · exact onlyEmits_pure ()

theorem onlyEmits_checkPatch (c : EditCall) (dto : PatchDto) (t : TransactionWithOverride) :
    OnlyEmits (checkPatch c dto t) := by
  unfold checkPatch
  split
  · refine onlyEmits_bind (onlyEmits_query _) fun account => ?_
    cases account with
    | none => exact onlyEmits_throw _
    | some a => exact onlyEmits_checkProjected _ _ _
  · exact onlyEmits_pure ()

theorem quiet_checkPatch (c : EditCall) (dto : PatchDto) (t : TransactionWithOverride) :
    Quiet (checkPatch c dto t) :=
  (onlyEmits_checkPatch c dto t).quiet

/-- `AdminTransactionsService.patch`. -/
def patch (env : Env) (me : ℕ) (c : EditCall) (dto : PatchDto) : Service EffectiveFields := do
  assertRate env c.actorUserId c.now
  let t ← readTransaction c.transactionId (.notFound "Transaction not found")
  checkPatch c dto t
  transaction me (adjustedRows t.row.accountId (patchDelta dto t)) (patchTx c dto t)
  let fresh ← readTransaction c.transactionId rowGone
  emitTxUpdated c.transactionId fresh false
  emitBalanceIf (patchDelta dto t ≠ 0) t.row.accountId
  return effectiveOf fresh

/-- The check of `create`, on the balance as it was read. -/
def checkCreate (dto : CreateDto) (account : Account) (amount : ℤ) : Service Unit :=
  if dto.forceAllowNegative then pure () else checkProjected account amount none

theorem onlyEmits_checkCreate (dto : CreateDto) (account : Account) (amount : ℤ) :
    OnlyEmits (checkCreate dto account amount) := by
  unfold checkCreate
  split
  · exact onlyEmits_pure ()
  · exact onlyEmits_checkProjected _ _ _

theorem quiet_checkCreate (dto : CreateDto) (account : Account) (amount : ℤ) :
    Quiet (checkCreate dto account amount) :=
  (onlyEmits_checkCreate dto account amount).quiet

/-- `create` on a non-zero amount. -/
def createAmount (me : ℕ) (c : EditCall) (dto : CreateDto) (account : Account) (amount : ℤ) :
    Service EffectiveFields := do
  checkCreate dto account amount
  transaction me (adjustedRows dto.accountId amount) (createTx c dto account amount)
  emit (.transactionCreated account.userId dto.accountId c.transactionId amount dto.status)
  emitBalance dto.accountId
  let fresh ← readTransaction c.transactionId rowGone
  return effectiveOf fresh

/-- `create` on an account. -/
def createOn (me : ℕ) (c : EditCall) (dto : CreateDto) (account : Account) :
    Service EffectiveFields :=
  match dto.amountCents with
  | none => throw (.internal "Cannot convert undefined to a BigInt")
  | some amount =>
    if amount = 0 then throw (.badRequest "Amount cannot be zero")
    else createAmount me c dto account amount

/-- `AdminTransactionsService.create`; the id of the call is the one the row gets. -/
def create (env : Env) (me : ℕ) (c : EditCall) (dto : CreateDto) : Service EffectiveFields := do
  assertRate env c.actorUserId c.now
  let account ← query fun db => db.accounts.lookup dto.accountId
  match account with
  | none => throw (.notFound "Account not found")
  | some account => createOn me c dto account

/-- `AdminTransactionsService.delete`. -/
def delete (env : Env) (me : ℕ) (c : EditCall) : Service Unit := do
  assertRate env c.actorUserId c.now
  let t ← readTransaction c.transactionId (.notFound "Transaction not found")
  transaction me (adjustedRows t.row.accountId (-(effectiveOf t).amountCents)) (deleteTx c t)
  emit (.transactionUpdated t.account.userId t.row.accountId c.transactionId none true)
  emitBalanceIf ((effectiveOf t).amountCents ≠ 0) t.row.accountId

/-- The override of a transaction that has none. -/
def emptyOverride (actorUserId : Uuid) (reason : String) : TransactionOverride :=
  ⟨none, none, none, none, none, none, actorUserId, some reason⟩

/-- `AdminTransactionsService.hide`. -/
def hide (env : Env) (me : ℕ) (c : EditCall) : Service Unit := do
  assertRate env c.actorUserId c.now
  let _ ← readTransaction c.transactionId (.notFound "Transaction not found")
  let set (o : TransactionOverride) : TransactionOverride := { o with
    overrideStatus := some .hidden
    appliedByUserId := c.actorUserId
    reason := some c.reason }
  transaction me [] (Tx.upsertOverride c.transactionId set
    (set (emptyOverride c.actorUserId c.reason)))
  let fresh ← readTransaction c.transactionId rowGone
  emitTxUpdated c.transactionId fresh true

/-- `clearOverride` on a transaction that has an override. -/
def clearRead (me : ℕ) (c : EditCall) (t : TransactionWithOverride) : Service Unit := do
  transaction me (adjustedRows t.row.accountId (-overrideDelta t)) (clearTx c t)
  let fresh ← readTransaction c.transactionId rowGone
  emitTxUpdated c.transactionId fresh false
  emitBalanceIf (overrideDelta t ≠ 0) t.row.accountId

/-- `AdminTransactionsService.clearOverride`. -/
def clearOverride (me : ℕ) (c : EditCall) : Service Unit := do
  let t ← readTransaction c.transactionId (.notFound "No override to clear")
  if t.override.isNone then throw (.notFound "No override to clear") else clearRead me c t

/-- One transaction of `bulkShift`: how many were updated. -/
def shiftOne (me : ℕ) (c : EditCall) (shiftDays : ℤ) (id : Uuid) : Service ℕ := do
  let row ← query (findWithOverride id)
  match row with
  | none => return 0
  | some t => do
    let shifted := (t.override.bind TransactionOverride.overrideOccurredAt).getD
      t.row.occurredAt + shiftDays * 86400000
    let set (o : TransactionOverride) : TransactionOverride := { o with
      overrideOccurredAt := some shifted
      appliedByUserId := c.actorUserId
      reason := some c.reason }
    transaction me [] (Tx.upsertOverride id set (set (emptyOverride c.actorUserId c.reason)))
    let fresh ← readTransaction id rowGone
    emitTxUpdated id fresh false
    return 1

/-- The loop of `bulkShift`. -/
def shiftAll (me : ℕ) (c : EditCall) (shiftDays : ℤ) : List Uuid → Service ℕ
  | [] => return 0
  | id :: ids => do
    let n ← shiftOne me c shiftDays id
    let m ← shiftAll me c shiftDays ids
    return n + m

/-- `AdminTransactionsService.bulkShift`. -/
def bulkShift (me : ℕ) (superadmin : Bool) (c : EditCall) (transactionIds : List Uuid)
    (shiftDays : ℤ) : Service ℕ :=
  if !superadmin then throw (.forbidden "Superadmin only")
  else if transactionIds.isEmpty then throw (.badRequest "No transaction ids")
  else shiftAll me c shiftDays transactionIds

end BankDemo.Admin
