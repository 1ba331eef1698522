import BankDemo.Transfers.Quote
import BankDemo.Transfers.Settlement

/-!
# The transfers service

`initiate` checks a request, debits the sender and creates the transfer in one transaction that
holds the lock on the sender's row, and hands the transfer to the settlement queue unless it is
held for review. `forceSettle` is the rescue path: it moves the transfer back to pending if it is
not, and settles it through a fresh job or, without a queue, at once.

`Initiated` says what the transaction of a successful `initiate` did (`pendingTx_ok`).
-/

namespace BankDemo.Transfers

open Ledger

/-- The configuration, and the library functions that are not computed here: Unicode upper-casing
and the reading of a UUID from text. -/
structure Env where
  cfg : TransferConfig
  /-- `OVERRIDE_RATE_LIMIT_PER_MIN`. -/
  overrideRateLimit : ℤ
  toUpperCase : String → String
  parseUuid : String → Option Uuid

/-! ## Requests -/

structure WireDetailsDto where
  type : WireBeneficiaryType
  beneficiaryName : String
  swiftBic : Option String
  iban : Option String
  deriving DecidableEq

structure InitiateTransferDto where
  fromAccountId : Uuid
  toAccountId : Option Uuid
  externalRef : Option String
  kind : TransferKind
  amountCents : ℤ
  instant : Bool
  note : Option String
  wireDetails : Option WireDetailsDto
  sendCurrency : Option String
  sendAmountMinor : Option ℤ
  deriving DecidableEq

/-- A call of `initiate`: the request, what `FxService.convert` to USD answers to it, the ids it
draws, the time, and whether the queue can be reached. -/
structure InitiateCall where
  userId : Uuid
  idempotencyKey : String
  dto : InitiateTransferDto
  convert : ℤ → String → Except Error FxConversion
  transferId : Uuid
  pendingTxId : Uuid
  now : Instant
  queueUp : Bool

structure InitiateResult where
  transferId : Uuid
  status : TransactionStatus
  pendingTransactionId : Option Uuid
  feeCents : ℤ
  estimatedSettleMs : ℤ
  fx : Option FxConversion
  deriving DecidableEq

/-- `KIND_TO_TX_KIND`. -/
def kindToTxKind : TransferKind → TransactionKind
  | .internal => .adjustment
  | .achIn => .achIn
  | .achOut => .achOut
  | .wireIn => .achIn
  | .wireOut => .achOut
  | .p2p => .p2pOut

/-! ## The checks -/

/-- `TransfersRepository.findByIdempotencyKey`. -/
def findByIdempotencyKey (db : Db) (key : String) : Option (Uuid × Transfer) :=
  db.transfers.findRow fun t => t.idempotencyKey = key

/-- `resolveSettlement`: the settlement amount in USD cents and the conversion applied. -/
def resolveSettlement (env : Env) (c : InitiateCall) : Except Error (ℤ × Option FxConversion) :=
  let send := env.toUpperCase (c.dto.sendCurrency.getD "USD")
  match c.dto.sendAmountMinor with
  | some minor =>
    if c.dto.kind = .wireOut ∧ c.dto.sendCurrency.getD "" ≠ "" then do
      let conv ← c.convert minor send
      return (conv.toAmountMinor, if conv.from_ = conv.to_ then none else some conv)
    else return (c.dto.amountCents, none)
  | none => return (c.dto.amountCents, none)

/-- The scope of a wire, from its details. -/
def wireScope (dto : InitiateTransferDto) : Option WireScope :=
  if dto.kind = .wireOut then
    dto.wireDetails.map fun w => if w.type = .international then .international else .domestic
  else none

/-- `estimatedSettleMs`, the delay of the settlement. -/
def settleMs (env : Env) (instant : Bool) : ℤ :=
  if instant then env.cfg.settleInstantMs else env.cfg.settleStandardMs

/-- An IBAN as it is compared. -/
def ibanNorm (env : Env) (iban : Option String) : String :=
  JsString.stripSpaces (env.toUpperCase (JsString.trim (iban.getD "")))

/-- The answer to a call that finds its key used. -/
def replayed (env : Env) (c : InitiateCall) (id : Uuid) (t : Transfer) : Service InitiateResult :=
  if t.initiatedByUserId ≠ c.userId then
    throw (.conflict "Idempotency key already used by another user")
  else return ⟨id, t.status, t.pendingTransactionId, t.feeCents, settleMs env t.instant, none⟩

/-- The gate of outbound wires. -/
def wireGate (env : Env) (dto : InitiateTransferDto) : Service Unit :=
  if dto.kind = .wireOut then
    match dto.wireDetails with
    | none => throw (.badRequest "WIRE_DETAILS_REQUIRED")
    | some w =>
      match w.type with
      | .local_ =>
        if ibanNorm env w.iban = "" then throw (.badRequest "WIRE_DETAILS_INCOMPLETE")
        else do
          let found ← query fun db => db.wireBeneficiaries.findRow fun b =>
            b.archivedAt = none ∧ b.type = .local_ ∧ b.iban = some (ibanNorm env w.iban)
          if found.isNone then throw (.badRequest "BENEFICIARY_NOT_FOUND") else pure ()
      | .international =>
        if w.swiftBic.getD "" = "" ∨ w.iban.getD "" = "" then
          throw (.badRequest "WIRE_DETAILS_INCOMPLETE")
        else pure ()
  else pure ()

/-- The sender's account, if the user may send from it. -/
def sourceAccount (userId accountId : Uuid) : Service Account := do
  let account ← query fun db => db.accounts.lookup accountId
  match account with
  | none => throw (.notFound "Source account not found")
  | some a =>
    if a.userId ≠ userId then throw (.forbidden "Not your account")
    else if a.status ≠ .active then throw (.badRequest "Source account not active")
    else return a

/-- The destination of an internal transfer. The destination of other kinds is not looked at. -/
def internalDestination (userId : Uuid) (dto : InitiateTransferDto) :
    Service (Option (Uuid × Account)) :=
  if dto.kind = .internal then
    match dto.toAccountId with
    | none => throw (.badRequest "toAccountId required for internal transfer")
    | some id => do
      let account ← query fun db => db.accounts.lookup id
      match account with
      | none => throw (.notFound "Destination account not found")
      | some a =>
        if a.userId ≠ userId then throw (.forbidden "Cross-user internal transfer requires p2p")
        else return some (id, a)
  else return none

/-! ## Descriptions -/

/-- The label of a linked account, from its row or from the reference. -/
def linkedLabel (linked : Option LinkedAccount) (fallbackName : String) : Option String :=
  match linked with
  | none => if fallbackName = "" then none else some fallbackName
  | some l =>
    let isCard := JsString.startsWith l.institutionId "card:" ||
      JsString.containsIgnoreCase l.accountType "card" ||
      JsString.containsIgnoreCase l.accountType "credit"
    let base := if isCard then "Card" else l.institutionName
    some (if l.mask = "" then base else s!"{base} •••• {l.mask}")

/-- `describeLinkedAccount`. -/
def describeLinkedAccount (env : Env) (externalRef : Option String) : Service (Option String) :=
  match externalRef with
  | none => return none
  | some ref =>
    if JsString.startsWith ref "linked:" then do
      let parts := JsString.split ref ':'
      let fallbackName := JsString.trim (":".intercalate (parts.drop 2))
      let linked ← query fun db =>
        ((JsString.orElse parts[1]? none).bind env.parseUuid).bind fun id =>
          db.linkedAccounts.lookup id
      return linkedLabel linked fallbackName
    else return none

/-- `dto.note`, or the generic label. -/
def fallbackDescription (dto : InitiateTransferDto) : String :=
  dto.note.getD s!"Transfer ({dto.kind.text})"

/-- `describeTransfer` on a transfer to or from a linked account. -/
def describeAch (env : Env) (dto : InitiateTransferDto) (fromAccount : Account) :
    Service String := do
  let label ← describeLinkedAccount env dto.externalRef
  match label with
  | none => return fallbackDescription dto
  | some label =>
    return if dto.kind = .achOut then s!"{fromAccount.label} to {label}"
      else s!"{label} to {fromAccount.label}"

/-- `describeTransfer`. -/
def describeTransfer (env : Env) (dto : InitiateTransferDto) (fromAccount : Account)
    (toAccount : Option (Uuid × Account)) : Service String :=
  let beneficiary := JsString.trim ((dto.wireDetails.map WireDetailsDto.beneficiaryName).getD "")
  match dto.kind with
  | .internal => match toAccount with
    | some a => return s!"{fromAccount.label} to {a.2.label}"
    | none => return fallbackDescription dto
  | .wireOut =>
    if beneficiary = "" then return fallbackDescription dto
    else return s!"Wire transfer to {beneficiary}"
  | .achOut | .achIn => describeAch env dto fromAccount
  | _ => return fallbackDescription dto

/-! The checks and the description only read. -/

theorem reads_wireGate (env : Env) (dto : InitiateTransferDto) : Reads (wireGate env dto) := by
  unfold wireGate
  split
  · split
    · exact reads_throw _
    · split
      · split
        · exact reads_throw _
        · refine reads_bind (reads_query _) fun found => ?_
          split
          · exact reads_throw _
          · exact reads_pure ()
      · split
        · exact reads_throw _
        · exact reads_pure ()
  · exact reads_pure ()

theorem reads_sourceAccount (userId accountId : Uuid) : Reads (sourceAccount userId accountId) := by
  refine reads_bind (reads_query _) fun account => ?_
  cases account with
  | none => exact reads_throw _
  | some a =>
    simp only
    split
    · exact reads_throw _
    · split
      · exact reads_throw _
      · exact reads_pure a

theorem reads_internalDestination (userId : Uuid) (dto : InitiateTransferDto) :
    Reads (internalDestination userId dto) := by
  unfold internalDestination
  split
  · split
    · exact reads_throw _
    · refine reads_bind (reads_query _) fun account => ?_
      cases account with
      | none => exact reads_throw _
      | some a =>
        simp only
        split
        · exact reads_throw _
        · exact reads_pure _
  · exact reads_pure _

theorem reads_describeLinkedAccount (env : Env) (externalRef : Option String) :
    Reads (describeLinkedAccount env externalRef) := by
  unfold describeLinkedAccount
  split
  · exact reads_pure _
  · split
    · exact reads_bind (reads_query _) fun _ => reads_pure _
    · exact reads_pure _

theorem reads_describeAch (env : Env) (dto : InitiateTransferDto) (fromAccount : Account) :
    Reads (describeAch env dto fromAccount) := by
  refine reads_bind (reads_describeLinkedAccount env _) fun label => ?_
  cases label with
  | none => exact reads_pure _
  | some label => exact reads_pure _

theorem reads_describeTransfer (env : Env) (dto : InitiateTransferDto) (fromAccount : Account)
    (toAccount : Option (Uuid × Account)) :
    Reads (describeTransfer env dto fromAccount toAccount) := by
  unfold describeTransfer
  simp only
  split
  · split <;> exact reads_pure _
  · split <;> exact reads_pure _
  · exact reads_describeAch env dto fromAccount
  · exact reads_describeAch env dto fromAccount
  · exact reads_pure _

theorem quiet_wireGate (env : Env) (dto : InitiateTransferDto) : Quiet (wireGate env dto) :=
  (reads_wireGate env dto).quiet

theorem quiet_sourceAccount (userId accountId : Uuid) : Quiet (sourceAccount userId accountId) :=
  (reads_sourceAccount userId accountId).quiet

theorem quiet_internalDestination (userId : Uuid) (dto : InitiateTransferDto) :
    Quiet (internalDestination userId dto) :=
  (reads_internalDestination userId dto).quiet

theorem quiet_describeTransfer (env : Env) (dto : InitiateTransferDto) (fromAccount : Account)
    (toAccount : Option (Uuid × Account)) : Quiet (describeTransfer env dto fromAccount toAccount) :=
  (reads_describeTransfer env dto fromAccount toAccount).quiet

/-! ## The transaction -/

/-- The review gate: every outbound wire and every transfer to a linked account is held, and
payments from the threshold on. -/
def requiresReview (env : Env) (kind : TransferKind) (settlementCents : ℤ) : Bool :=
  let isOutbound := kind = .p2p || kind = .achOut || kind = .wireOut
  kind = .wireOut || kind = .achOut ||
    (isOutbound && env.cfg.reviewThresholdCents ≤ settlementCents)

/-- The row `initiate` creates. -/
def newTransfer (env : Env) (c : InitiateCall) (settlementCents feeCents : ℤ)
    (toAccount : Option (Uuid × Account)) : Transfer where
  kind := c.dto.kind
  status := .pending
  fromAccountId := c.dto.fromAccountId
  toAccountId := match toAccount with
    | some a => some a.1
    | none => c.dto.toAccountId
  externalRef := c.dto.externalRef
  amountCents := settlementCents
  feeCents
  instant := c.dto.instant
  initiatedByUserId := c.userId
  settledAt := none
  failureReason := none
  idempotencyKey := c.idempotencyKey
  pendingTransactionId := some c.pendingTxId
  settledTransactionId := none
  requiresReview := requiresReview env c.dto.kind settlementCents
  reviewDecision := none
  reviewedAt := none
  reviewedByUserId := none
  reviewReason := none

/-- The fee's pair of postings, when there is a fee. -/
def feeLegs (feeCents : ℤ) (from_ to_ : LedgerCode) : List PostingInput :=
  if feeCents > 0 then [debit from_ feeCents, credit to_ feeCents] else []

/-- The postings of a new transfer. -/
def pendingLegs (t : Transfer) : List PostingInput :=
  let account := accountSubLedgerCode t.fromAccountId
  [debit account t.amountCents, credit .pendingOut t.amountCents] ++
    feeLegs t.feeCents account .feeRevenue

theorem net_feeLegs {fee : ℤ} (h : 0 ≤ fee) (x y c : LedgerCode) :
    DoubleEntry.net (legs (feeLegs fee x y)) c =
      (if y = c then fee else 0) - if x = c then fee else 0 := by
  unfold feeLegs
  split
  · exact net_debit_credit x y c fee
  · have hfee : fee = 0 := by omega
    simp [hfee, legs]

theorem net_feeLegs_other {fee : ℤ} {x y c : LedgerCode} (hx : x ≠ c) (hy : y ≠ c) :
    DoubleEntry.net (legs (feeLegs fee x y)) c = 0 := by
  unfold feeLegs
  split
  · rw [net_debit_credit, if_neg hx, if_neg hy, sub_zero]
  · rfl

theorem positive_feeLegs (fee : ℤ) (x y : LedgerCode) : Positive (legs (feeLegs fee x y)) := by
  unfold feeLegs
  split
  · rename_i h
    exact positive_pair h h
  · intro p hp
    cases hp

theorem net_pendingLegs {t : Transfer} (h : 0 ≤ t.feeCents) (a : Uuid) :
    DoubleEntry.net (legs (pendingLegs t)) (.account a) =
      if a = t.fromAccountId then -(t.amountCents + t.feeCents) else 0 := by
  simp only [pendingLegs, accountSubLedgerCode]
  rw [legs_append, DoubleEntry.net_append, net_debit_credit, net_feeLegs h]
  by_cases ha : a = t.fromAccountId
  · subst ha
    simp only [reduceCtorEq, if_false, if_true]
    ring
  · have ha' : t.fromAccountId ≠ a := fun h => ha h.symm
    simp [ha, ha']

theorem positive_pendingLegs {t : Transfer} (h : 0 < t.amountCents) :
    Positive (legs (pendingLegs t)) := by
  simp only [pendingLegs]
  rw [legs_append]
  exact (positive_pair h h).append (positive_feeLegs _ _ _)

/-- The sub-ledger of the destination of an internal transfer. -/
def ensureDestination (toAccount : Option (Uuid × Account)) : Tx Unit :=
  match toAccount with
  | some a => ensureAccountLedger a.1 a.2.userId
  | none => pure ()

/-- The writes of `initiate`, after the check of the fresh balance. -/
def pendingTx (c : InitiateCall) (t : Transfer) (fromAccount : Account)
    (toAccount : Option (Uuid × Account)) (fx : Option FxConversion) (description : String) :
    Tx Transfer := do
  ensureAccountLedger t.fromAccountId fromAccount.userId
  ensureDestination toAccount
  let _ ← post {
    description := s!"Transfer {t.kind.text} {t.amountCents}"
    occurredAt := c.now
    source := .pending c.transferId
    referenceId := some c.transferId
    postings := pendingLegs t }
  Tx.createTransaction c.pendingTxId {
    accountId := t.fromAccountId
    kind := kindToTxKind t.kind
    status := .pending
    amountCents := -(t.amountCents + t.feeCents)
    description
    category := .transfer
    note := c.dto.note
    occurredAt := c.now
    postedAt := none
    metadata := some ⟨some c.transferId, fx, none⟩ }
  Tx.incrementBalance t.fromAccountId (-(t.amountCents + t.feeCents))
  Tx.createTransfer c.transferId t
  return t

/-- What the transaction of a successful `initiate` did: the row `t` was created under a new key,
the sender was debited amount and fee, and the feed and the journal say so. -/
structure Initiated (c : InitiateCall) (t : Transfer) (db db' : Db) : Prop where
  balance : Credited t.fromAccountId (-(t.amountCents + t.feeCents)) db db'
  booked : Booked (.pending c.transferId) (legs (pendingLegs t)) db db'
  feed : ∃ row : Transaction, row.accountId = t.fromAccountId ∧ row.status = .pending ∧
    row.amountCents = -(t.amountCents + t.feeCents) ∧
    Table.Created c.pendingTxId row db.transactions db'.transactions
  fresh : (db.transfers.findRow fun x => x.idempotencyKey = t.idempotencyKey) = none
  transfers : Table.Created c.transferId t db.transfers db'.transfers

theorem ensureDestination_ok {toAccount : Option (Uuid × Account)} {db : Db} {r : Unit × Db}
    (h : ensureDestination toAccount db = .ok r) :
    ∃ L, r.2 = { db with ledgerAccounts := L } ∧ Extends db.ledgerAccounts L := by
  cases toAccount with
  | none =>
    obtain rfl := tx_pure_ok.1 h
    exact ⟨_, rfl, .refl _⟩
  | some a =>
    obtain ⟨L, hr, hL, -⟩ := ensureAccountLedger_ok h
    exact ⟨L, hr, hL⟩

theorem pendingTx_ok {c : InitiateCall} {t : Transfer} {fromAccount : Account}
    {toAccount : Option (Uuid × Account)} {fx : Option FxConversion} {description : String}
    {db : Db} {r : Transfer × Db}
    (h : pendingTx c t fromAccount toAccount fx description db = .ok r) :
    r.1 = t ∧ Initiated c t db r.2 := by
  unfold pendingTx at h
  obtain ⟨_, db₁, h₁, h⟩ := tx_bind_ok.1 h
  obtain ⟨_, db₂, h₂, h⟩ := tx_bind_ok.1 h
  obtain ⟨_, db₃, h₃, h⟩ := tx_bind_ok.1 h
  obtain ⟨_, db₄, h₄, h⟩ := tx_bind_ok.1 h
  obtain ⟨_, db₅, h₅, h⟩ := tx_bind_ok.1 h
  obtain ⟨_, db₆, h₆, h⟩ := tx_bind_ok.1 h
  obtain rfl := tx_pure_ok.1 h
  obtain ⟨L₁, hdb₁, hL₁, -⟩ := ensureAccountLedger_ok h₁
  obtain ⟨L₂, hdb₂, hL₂⟩ := ensureDestination_ok h₂
  have hpost : Posted _ db₂ db₃ := post_ok h₃
  obtain ⟨L₃, -, -, hdb₃⟩ := hpost.write
  obtain ⟨hid, hdb₄⟩ := Tx.createTransaction_ok h₄
  obtain ⟨acct, hacct, hdb₅⟩ := Tx.incrementBalance_ok h₅
  obtain ⟨hnew, hkey, hdb₆⟩ := Tx.createTransfer_ok h₆
  simp only at hdb₁ hL₂ hdb₂ hdb₃ hdb₄ hdb₅ hdb₆
  subst hdb₁ hdb₂ hdb₃ hdb₄ hdb₅ hdb₆
  have hbooked : Booked _ _ db _ := hpost.booked (hL₁.trans hL₂) rfl
  exact ⟨rfl, ⟨acct, hacct, rfl⟩, hbooked.of_eq rfl rfl, ⟨_, rfl, rfl, rfl, hid, rfl⟩, hkey, hnew,
    rfl⟩

/-- The critical section of `initiate`: with the sender's row locked, the balance is read again
before the debit. -/
def debitSender (me : ℕ) (c : InitiateCall) (t : Transfer) (fromAccount : Account)
    (toAccount : Option (Uuid × Account)) (fx : Option FxConversion) (description : String) :
    Service Transfer :=
  withLock me t.fromAccountId do
    let fresh ← query fun db => db.accounts.lookup t.fromAccountId
    match fresh with
    | none => throw (.badRequest "Insufficient funds")
    | some a =>
      if a.balanceCents < t.amountCents + t.feeCents then throw (.badRequest "Insufficient funds")
      else transaction me [t.fromAccountId] (pendingTx c t fromAccount toAccount fx description)

/-! ## The service -/

/-- `settlementQueue.add`: a job whose id is in use is not added again. -/
def addJob (id : Uuid) (q : Table Uuid Job) : Table Uuid Job :=
  if (q.lookup id).isSome then q else q.insert id ⟨0, 3⟩

/-- Hand a new transfer over: to the reviewers or to the queue. Without a queue, the worker is
called by a timer, as a call of its own. -/
def handOver (c : InitiateCall) (t : Transfer) : Service Unit :=
  if t.requiresReview then emit (.adminQueueChanged 1)
  else if c.queueUp then onQueue (addJob c.transferId)
  else pure ()

/-- What `initiate` does after the commit. -/
def afterDebit (env : Env) (c : InitiateCall) (t : Transfer) (fx : Option FxConversion) :
    Service InitiateResult := do
  emit (.transactionCreated c.userId t.fromAccountId c.pendingTxId
    (-(t.amountCents + t.feeCents)) .pending)
  handOver c t
  return ⟨c.transferId, t.status, some c.pendingTxId, t.feeCents, settleMs env c.dto.instant, fx⟩

theorem quiet_handOver (c : InitiateCall) (t : Transfer) : Quiet (handOver c t) := by
  unfold handOver
  split
  · exact quiet_emit _
  · split
    · exact quiet_onQueue _
    · exact quiet_pure ()

theorem quiet_afterDebit (env : Env) (c : InitiateCall) (t : Transfer) (fx : Option FxConversion) :
    Quiet (afterDebit env c t fx) :=
  quiet_bind (quiet_emit _) fun _ => quiet_bind (quiet_handOver c t) fun _ => quiet_pure _

/-- `initiate` on a priced request. -/
def initiatePriced (env : Env) (me : ℕ) (c : InitiateCall) (settlementCents : ℤ)
    (fx : Option FxConversion) (feeCents : ℤ) : Service InitiateResult := do
  wireGate env c.dto
  let fromAccount ← sourceAccount c.userId c.dto.fromAccountId
  let toAccount ← internalDestination c.userId c.dto
  if fromAccount.balanceCents < settlementCents + feeCents then
    throw (.badRequest "Insufficient funds")
  else do
    let description ← describeTransfer env c.dto fromAccount toAccount
    let t ← debitSender me c (newTransfer env c settlementCents feeCents toAccount) fromAccount
      toAccount fx description
    afterDebit env c t fx

/-- `initiate` on a key that was not used. -/
def initiateNew (env : Env) (me : ℕ) (c : InitiateCall) : Service InitiateResult := do
  let (settlementCents, fx) ← .lift (resolveSettlement env c)
  let quote := quote env.cfg c.dto.kind settlementCents c.dto.instant (wireScope c.dto)
  if !quote.valid then throw (.badRequest (quote.reason.getD "Invalid transfer"))
  else initiatePriced env me c settlementCents fx quote.feeCents

/-- `TransfersService.initiate`. -/
def initiate (env : Env) (me : ℕ) (c : InitiateCall) : Service InitiateResult :=
  if c.idempotencyKey = "" then throw (.badRequest "Idempotency-Key header required")
  else do
    let user ← query fun db => db.users.lookup c.userId
    if (user.map User.transfersDisabled).getD false then throw (.forbidden "TRANSFERS_DISABLED")
    else do
      let replay ← query fun db => findByIdempotencyKey db c.idempotencyKey
      match replay with
      | some (id, t) => replayed env c id t
      | none => initiateNew env me c

/-! An `initiate` that throws has changed nothing. -/

theorem afterDebit_neverFails (env : Env) (c : InitiateCall) (t : Transfer)
    (fx : Option FxConversion) : (afterDebit env c t fx).NeverFails := by
  refine Prog.neverFails_bind Prog.neverFails_modify fun _ => ?_
  refine Prog.neverFails_bind ?_ fun _ => Prog.neverFails_pure _
  unfold handOver
  split
  · exact Prog.neverFails_modify
  · split
    · exact Prog.neverFails_modify
    · exact Prog.neverFails_pure ()

theorem debitSender_failsClean {me : ℕ} {c : InitiateCall} {t : Transfer} {fromAccount : Account}
    {toAccount : Option (Uuid × Account)} {fx : Option FxConversion} {description : String} :
    (debitSender me c t fromAccount toAccount fx description).FailsClean SameDb := by
  refine withLock_failsClean ((quiet_query _).failsClean_bind fun fresh => ?_)
  cases fresh with
  | none => trivial
  | some a =>
    simp only
    split
    · trivial
    · exact Prog.failsClean_attempt fun _ => rfl

theorem initiatePriced_failsClean {env : Env} {me : ℕ} {c : InitiateCall} {s fee : ℤ}
    {fx : Option FxConversion} : (initiatePriced env me c s fx fee).FailsClean SameDb := by
  refine (quiet_wireGate env _).failsClean_bind fun _ => ?_
  refine (quiet_sourceAccount _ _).failsClean_bind fun a => ?_
  refine (quiet_internalDestination _ _).failsClean_bind fun toAccount => ?_
  split
  · trivial
  · refine (quiet_describeTransfer env _ _ _).failsClean_bind fun d => ?_
    exact debitSender_failsClean.bind fun t => afterDebit_neverFails env c t fx

theorem initiate_failsClean (env : Env) (me : ℕ) (c : InitiateCall) :
    (initiate env me c).FailsClean SameDb := by
  unfold initiate
  split
  · trivial
  · refine (quiet_query _).failsClean_bind fun user => ?_
    split
    · trivial
    · refine (quiet_query _).failsClean_bind fun replay => ?_
      cases replay with
      | some r =>
        simp only [replayed]
        split <;> trivial
      | none =>
        refine Prog.Each.failsClean_bind (Prog.each_lift _) fun r => ?_
        simp only
        split
        · trivial
        · exact initiatePriced_failsClean

/-- A call of `forceSettle`, with the run of the worker it makes when the queue is down. -/
structure ForceSettleCall where
  worker : ProcessCall
  queueUp : Bool

/-- The transfer a call is about. -/
def ForceSettleCall.transferId (c : ForceSettleCall) : Uuid := c.worker.transferId

/-- The update that moves a transfer back to pending. -/
def resetToPending (t : Transfer) : Transfer :=
  { t with status := .pending, settledAt := none, settledTransactionId := none }

/-- Move a transfer that was read as `t` back to pending, if it is not. -/
def reopen (me : ℕ) (id : Uuid) (t : Transfer) : Service Unit :=
  if t.status = .pending then pure ()
  else transaction me [] (Tx.updateTransfer id resetToPending)

/-- Replace the job of a transfer, or run the worker. -/
def settleAgain (me : ℕ) (c : ForceSettleCall) : Service Unit :=
  if c.queueUp then onQueue fun q => addJob c.transferId (q.erase c.transferId)
  else process me c.worker

/-- `TransfersService.forceSettle`. -/
def forceSettle (me : ℕ) (c : ForceSettleCall) : Service Unit := do
  let transfer ← query fun db => db.transfers.lookup c.transferId
  match transfer with
  | none => throw (.internal s!"Transfer {c.transferId} not found")
  | some t => do
    reopen me c.transferId t
    settleAgain me c

end BankDemo.Transfers
