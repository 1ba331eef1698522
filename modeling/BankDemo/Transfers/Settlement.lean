import BankDemo.Ledger.Effects
import BankDemo.Foundations.JsString

/-!
# The settlement worker

`process` is `SettlementWorker.process`: it reads the transfer, skips it unless it is pending and,
when a review is required, approved, and then settles it in one transaction (`settleTx`). The
pending check is on the row as it was read, outside the transaction.

`Settled` says what a committed settlement did (`settleTx_ok`). `onFailed` is the handler of
failed jobs, which gives up on a transfer by `TransfersRepository.markFailed` once the attempts
are exhausted.
-/

namespace BankDemo.Transfers

open Ledger

/-- `INFLOW_KINDS.includes(kind)`. -/
def isInflow : TransferKind → Bool
  | .achIn | .wireIn => true
  | _ => false

/-- The account an internal or p2p transfer is delivered to. -/
def destination (t : Transfer) : Option Uuid :=
  if t.kind = .internal ∨ t.kind = .p2p then t.toAccountId else none

/-- A run of the worker: the transfer, the ids it draws and the time. -/
structure ProcessCall where
  transferId : Uuid
  settledTxId : Uuid
  inflowTxId : Uuid
  now : Instant

/-- The sender's name for the description of the credit. -/
def senderName : Option User → String
  | none => ""
  | some u =>
    let full := JsString.trim (" ".intercalate
      ((u.firstName.toList ++ u.lastName.toList).filter fun s => s ≠ ""))
    ((JsString.orElse (JsString.orElse (some full) u.novaTag) (some u.email))).getD ""

/-- The description of the credit on the recipient's side. -/
def creditDescription (name : String) (isP2P : Bool) : String :=
  if name ≠ "" then s!"From {name}"
  else if isP2P then "Payment received"
  else "Internal transfer in"

/-- The part of the settlement that depends on the kind: the credit of a customer account, if any,
and the postings. -/
def settlePostings (c : ProcessCall) (t : Transfer) (sender : Account) :
    Tx (List PostingInput) :=
  match destination t with
  | some toAccountId => do
    let dest ← Tx.query fun db => db.accounts.lookup toAccountId
    match dest with
    | none => throw (.internal "Destination account vanished")
    | some dest => do
      ensureAccountLedger toAccountId dest.userId
      Tx.incrementBalance toAccountId t.amountCents
      let user ← Tx.query fun db => db.users.lookup sender.userId
      let isP2P : Bool := t.kind = .p2p
      Tx.createTransaction c.settledTxId {
        accountId := toAccountId
        kind := if isP2P then .p2pIn else .adjustment
        status := .posted
        amountCents := t.amountCents
        description := creditDescription (senderName user) isP2P
        category := if isP2P then .income else .transfer
        note := none
        occurredAt := c.now
        postedAt := some c.now
        metadata := some ⟨some c.transferId, none, none⟩ }
      return [debit .pendingOut t.amountCents,
        credit (accountSubLedgerCode toAccountId) t.amountCents]
  | none =>
    if isInflow t.kind then do
      Tx.incrementBalance t.fromAccountId t.amountCents
      Tx.createTransaction c.inflowTxId {
        accountId := t.fromAccountId
        kind := .achIn
        status := .posted
        amountCents := t.amountCents
        description := "Inbound transfer"
        category := .income
        note := none
        occurredAt := c.now
        postedAt := some c.now
        metadata := some ⟨some c.transferId, none, none⟩ }
      return [debit .cash t.amountCents,
        credit (accountSubLedgerCode t.fromAccountId) t.amountCents]
    else
      return [debit .pendingOut t.amountCents, credit .cash t.amountCents]

/-- The columns a settlement sets. -/
def stampSettled (c : ProcessCall) (t : Transfer) : Transfer :=
  { t with
    status := .posted
    settledAt := some c.now
    settledTransactionId := some c.settledTxId }

/-- The transaction of `process`, for the transfer as it was read. -/
def settleTx (c : ProcessCall) (t : Transfer) : Tx Unit := do
  let sender ← Tx.query fun db => db.accounts.lookup t.fromAccountId
  match sender with
  | none => throw (.internal "Sender account vanished")
  | some sender => do
    ensureAccountLedger t.fromAccountId sender.userId
    let postings ← settlePostings c t sender
    let _ ← post {
      description := s!"Settle {t.kind.text}"
      occurredAt := c.now
      source := .settle c.transferId
      referenceId := some c.transferId
      postings }
    Tx.updateTransaction? t.pendingTransactionId fun row =>
      { row with status := .posted, postedAt := some c.now }
    Tx.updateTransfer c.transferId (stampSettled c)

/-- The account whose balance a settlement credits. -/
def creditedAccount (t : Transfer) : Option Uuid :=
  match destination t with
  | some a => some a
  | none => if isInflow t.kind then some t.fromAccountId else none

/-! ## What a settlement did -/

/-- The postings of a settlement. -/
def settleLegs (t : Transfer) : List PostingInput :=
  match destination t with
  | some toAccountId =>
    [debit .pendingOut t.amountCents, credit (accountSubLedgerCode toAccountId) t.amountCents]
  | none =>
    if isInflow t.kind then
      [debit .cash t.amountCents, credit (accountSubLedgerCode t.fromAccountId) t.amountCents]
    else [debit .pendingOut t.amountCents, credit .cash t.amountCents]

theorem net_settleLegs (t : Transfer) (a : Uuid) :
    DoubleEntry.net (legs (settleLegs t)) (.account a) =
      if creditedAccount t = some a then t.amountCents else 0 := by
  unfold settleLegs creditedAccount accountSubLedgerCode
  split
  · rw [net_debit_credit]
    simp
  · split
    · rw [net_debit_credit]
      simp
    · rw [net_debit_credit]
      simp

theorem positive_settleLegs {t : Transfer} (h : 0 < t.amountCents) :
    Positive (legs (settleLegs t)) := by
  unfold settleLegs
  split
  · exact positive_pair h h
  · split <;> exact positive_pair h h

/-- The id of the row a settlement adds to the feed of the credited account. -/
def creditTxId (c : ProcessCall) (t : Transfer) : Uuid :=
  if (destination t).isSome then c.settledTxId else c.inflowTxId

/-- The feed got the row of the credit, if there is one. -/
def CreditFed (c : ProcessCall) (t : Transfer) (T T' : Table Uuid Transaction) : Prop :=
  match creditedAccount t with
  | some a => ∃ row : Transaction, row.accountId = a ∧ row.amountCents = t.amountCents ∧
      row.status = .posted ∧ Table.Created (creditTxId c t) row T T'
  | none => T' = T

/-- What the settlement of `t`, the transfer as it was read, did. -/
structure Settled (c : ProcessCall) (t : Transfer) (db db' : Db) : Prop where
  balance : Credited? (creditedAccount t) t.amountCents db db'
  booked : Booked (.settle c.transferId) (legs (settleLegs t)) db db'
  feed : ∃ T, CreditFed c t db.transactions T ∧ Table.Updated? t.pendingTransactionId
    (fun row => { row with status := .posted, postedAt := some c.now }) T db'.transactions
  transfers : Table.Updated c.transferId (stampSettled c) db.transfers db'.transfers

/-- What the part that depends on the kind did. -/
structure SettledPart (c : ProcessCall) (t : Transfer) (db db' : Db) : Prop where
  balance : Credited? (creditedAccount t) t.amountCents db db'
  feed : CreditFed c t db.transactions db'.transactions
  chart : Extends db.ledgerAccounts db'.ledgerAccounts
  journal : db'.journal = db.journal
  transfers : db'.transfers = db.transfers

/-- Where the transfer has a destination, the settlement credits it and sees to its ledger account. -/
theorem settlePostings_delivers {c : ProcessCall} {t : Transfer} {sender : Account} {db : Db}
    {r : List PostingInput × Db} (h : settlePostings c t sender db = .ok r) {a : Uuid}
    (ha : destination t = some a) :
    r.1 = settleLegs t ∧ SettledPart c t db r.2 ∧
      (r.2.ledgerAccounts.lookup (.account a)).isSome := by
  unfold settlePostings at h
  simp only [ha, Tx.query_bind] at h
  cases hdest : db.accounts.lookup a with
  | none =>
    simp only [hdest] at h
    exact absurd h tx_throw_ok
  | some dest =>
    simp only [hdest] at h
    obtain ⟨_, db₁, h₁, h⟩ := tx_bind_ok.1 h
    obtain ⟨_, db₂, h₂, h⟩ := tx_bind_ok.1 h
    rw [Tx.query_bind] at h
    obtain ⟨_, db₃, h₃, h⟩ := tx_bind_ok.1 h
    obtain ⟨L, hdb₁, hL, hcode⟩ := ensureAccountLedger_ok h₁
    obtain ⟨acct, hacct, hdb₂⟩ := Tx.incrementBalance_ok h₂
    obtain ⟨hid, hdb₃⟩ := Tx.createTransaction_ok h₃
    obtain rfl := tx_pure_ok.1 h
    simp only at hdb₁ hdb₂ hdb₃
    subst hdb₁ hdb₂ hdb₃
    have hcredited : creditedAccount t = some a := by simp [creditedAccount, ha]
    have hcreditTx : creditTxId c t = c.settledTxId := by simp [creditTxId, ha]
    refine ⟨by simp [settleLegs, ha], ⟨?_, ?_, hL, rfl, rfl⟩, hcode⟩
    · rw [hcredited]
      exact ⟨acct, hacct, rfl⟩
    · simp only [CreditFed, hcredited, hcreditTx]
      exact ⟨_, rfl, rfl, rfl, hid, rfl⟩

theorem settlePostings_ok {c : ProcessCall} {t : Transfer} {sender : Account} {db : Db}
    {r : List PostingInput × Db} (h : settlePostings c t sender db = .ok r) :
    r.1 = settleLegs t ∧ SettledPart c t db r.2 := by
  cases ha : destination t with
  | some a =>
    obtain ⟨hlegs, hpart, -⟩ := settlePostings_delivers h ha
    exact ⟨hlegs, hpart⟩
  | none =>
    unfold settlePostings at h
    simp only [ha] at h
    by_cases hin : isInflow t.kind = true
    · simp only [hin, if_true] at h
      obtain ⟨_, db₁, h₁, h⟩ := tx_bind_ok.1 h
      obtain ⟨_, db₂, h₂, h⟩ := tx_bind_ok.1 h
      obtain ⟨acct, hacct, hdb₁⟩ := Tx.incrementBalance_ok h₁
      obtain ⟨hid, hdb₂⟩ := Tx.createTransaction_ok h₂
      obtain rfl := tx_pure_ok.1 h
      simp only at hdb₁ hdb₂
      subst hdb₁ hdb₂
      have hcredited : creditedAccount t = some t.fromAccountId := by
        simp [creditedAccount, ha, hin]
      have hcreditTx : creditTxId c t = c.inflowTxId := by simp [creditTxId, ha]
      refine ⟨by simp [settleLegs, ha, hin], ?_, ?_, .refl _, rfl, rfl⟩
      · rw [hcredited]
        exact ⟨acct, hacct, rfl⟩
      · simp only [CreditFed, hcredited, hcreditTx]
        exact ⟨_, rfl, rfl, rfl, hid, rfl⟩
    · simp only [hin] at h
      obtain rfl := tx_pure_ok.1 h
      have hcredited : creditedAccount t = none := by simp [creditedAccount, ha, hin]
      refine ⟨by simp [settleLegs, ha, hin], ?_, ?_, .refl _, rfl, rfl⟩
      · rw [hcredited]
        rfl
      · simp only [CreditFed, hcredited]

theorem settleTx_ok {c : ProcessCall} {t : Transfer} {db : Db} {r : Unit × Db}
    (h : settleTx c t db = .ok r) : Settled c t db r.2 := by
  unfold settleTx at h
  rw [Tx.query_bind] at h
  cases hsender : db.accounts.lookup t.fromAccountId with
  | none =>
    simp only [hsender] at h
    exact absurd h tx_throw_ok
  | some sender =>
    simp only [hsender] at h
    obtain ⟨_, db₁, h₁, h⟩ := tx_bind_ok.1 h
    obtain ⟨postings, db₂, h₂, h⟩ := tx_bind_ok.1 h
    obtain ⟨_, db₃, h₃, h⟩ := tx_bind_ok.1 h
    obtain ⟨_, db₄, h₄, h⟩ := tx_bind_ok.1 h
    obtain ⟨L, hdb₁, hL, -⟩ := ensureAccountLedger_ok h₁
    obtain ⟨hlegs, hpart⟩ := settlePostings_ok h₂
    have hpost : Posted _ db₂ db₃ := post_ok h₃
    obtain ⟨row, hrow, hdb₅⟩ := Tx.updateTransfer_ok h
    obtain ⟨T, hdb₄, hT⟩ := Tx.updateTransaction?_ok h₄
    obtain ⟨L', -, -, hdb₃⟩ := hpost.write
    simp only at hdb₁ hlegs hpart hdb₃ hdb₄ hT hrow
    subst hdb₁ hlegs
    have hr : r.2 = { db₃ with
        transactions := T
        transfers := db₃.transfers.insert c.transferId (stampSettled c row) } := by
      rw [hdb₅, hdb₄]
    have hbooked : Booked _ _ db db₃ := hpost.booked (hL.trans hpart.chart) hpart.journal
    have haccounts : r.2.accounts = db₂.accounts := by rw [hr, hdb₃]
    have htransfers : db₃.transfers = db.transfers := by rw [hdb₃]; exact hpart.transfers
    have hfeed : db₃.transactions = db₂.transactions := by rw [hdb₃]
    refine ⟨?_, hbooked.of_eq (by rw [hr]) (by rw [hr]), ⟨db₂.transactions, hpart.feed, ?_⟩, row,
      ?_, ?_⟩
    · have hbalance := hpart.balance
      simp only [Credited?, Credited, haccounts] at hbalance ⊢
      exact hbalance
    · rw [hr, ← hfeed]
      exact hT
    · rw [← htransfers]
      rw [hdb₄] at hrow
      exact hrow
    · rw [hr, htransfers]

/-! ## The worker -/

/-- Tell the owner of an account its balance. -/
def emitBalance (accountId : Uuid) : Service Unit := do
  let account ← query fun db => db.accounts.lookup accountId
  match account with
  | some a => emit (.accountBalanceChanged a.userId accountId a.balanceCents)
  | none => pure ()

/-- Tell the recipient of an internal or p2p transfer. -/
def announceReceived (c : ProcessCall) (t : Transfer) : Service Unit :=
  match destination t with
  | some toAccountId => do
    let recipient ← query fun db => db.accounts.lookup toAccountId
    match recipient with
    | some r => do
      emit (.transactionSettled r.userId toAccountId c.settledTxId c.transferId t.amountCents)
      emit (.accountBalanceChanged r.userId toAccountId r.balanceCents)
      emit (.transactionCreated r.userId toAccountId c.settledTxId t.amountCents .posted)
    | none => pure ()
  | none => pure ()

/-- The events after a settlement has committed. -/
def announceSettled (c : ProcessCall) (t : Transfer) : Service Unit := do
  emitBalance t.fromAccountId
  emit (.transactionSettled t.initiatedByUserId t.fromAccountId
    (t.pendingTransactionId.getD c.settledTxId) c.transferId t.amountCents)
  announceReceived c t
  emit (.adminTransferSettled c.transferId t.initiatedByUserId (isInflow t.kind) t.amountCents
    t.kind)

theorem onlyEmits_emitBalance (a : Uuid) : OnlyEmits (emitBalance a) := by
  refine onlyEmits_bind (onlyEmits_query _) fun account => ?_
  cases account with
  | none => exact onlyEmits_pure ()
  | some a => exact onlyEmits_emit _

theorem quiet_emitBalance (a : Uuid) : Quiet (emitBalance a) := (onlyEmits_emitBalance a).quiet

theorem quiet_announceReceived (c : ProcessCall) (t : Transfer) :
    Quiet (announceReceived c t) := by
  unfold announceReceived
  cases destination t with
  | none => exact quiet_pure ()
  | some a =>
    refine quiet_bind (quiet_query _) fun recipient => ?_
    cases recipient with
    | none => exact quiet_pure ()
    | some r =>
      exact quiet_bind (quiet_emit _) fun _ => quiet_bind (quiet_emit _) fun _ => quiet_emit _

theorem quiet_announceSettled (c : ProcessCall) (t : Transfer) : Quiet (announceSettled c t) :=
  quiet_bind (quiet_emitBalance _) fun _ => quiet_bind (quiet_emit _) fun _ =>
    quiet_bind (quiet_announceReceived c t) fun _ => quiet_emit _

theorem emitBalance_neverFails (a : Uuid) : (emitBalance a).NeverFails := by
  refine Prog.neverFails_bind (Prog.neverFails_read _) fun account => ?_
  cases account with
  | none => exact Prog.neverFails_pure ()
  | some a => exact Prog.neverFails_modify

theorem announceReceived_neverFails (c : ProcessCall) (t : Transfer) :
    (announceReceived c t).NeverFails := by
  unfold announceReceived
  cases destination t with
  | none => exact Prog.neverFails_pure ()
  | some a =>
    refine Prog.neverFails_bind (Prog.neverFails_read _) fun recipient => ?_
    cases recipient with
    | none => exact Prog.neverFails_pure ()
    | some r =>
      exact Prog.neverFails_bind Prog.neverFails_modify fun _ =>
        Prog.neverFails_bind Prog.neverFails_modify fun _ => Prog.neverFails_modify

/-- Once a settlement has committed, the worker does not throw. -/
theorem announceSettled_neverFails (c : ProcessCall) (t : Transfer) :
    (announceSettled c t).NeverFails :=
  Prog.neverFails_bind (emitBalance_neverFails _) fun _ =>
    Prog.neverFails_bind Prog.neverFails_modify fun _ =>
      Prog.neverFails_bind (announceReceived_neverFails c t) fun _ => Prog.neverFails_modify

/-- The transfer may settle: pending, and approved when a review is required. -/
def settleable (t : Transfer) : Bool :=
  t.status = .pending && !(t.requiresReview && t.reviewDecision ≠ some .approved)

theorem pending_of_settleable {t : Transfer} (hs : settleable t = true) : t.status = .pending := by
  simp only [settleable, Bool.and_eq_true, decide_eq_true_eq] at hs
  exact hs.1

theorem approved_of_settleable {t : Transfer} (hs : settleable t = true)
    (hflag : t.requiresReview = true) : t.reviewDecision = some .approved := by
  simp only [settleable, hflag, Bool.true_and, Bool.and_eq_true, decide_eq_true_eq,
    Bool.not_eq_true', decide_eq_false_iff_not, not_not] at hs
  exact hs.2

/-- `SettlementWorker.process`. -/
def process (me : ℕ) (c : ProcessCall) : Service Unit := do
  let transfer ← query fun db => db.transfers.lookup c.transferId
  match transfer with
  | none => pure ()
  | some t =>
    if settleable t then do
      transaction me (creditedAccount t).toList (settleTx c t)
      announceSettled c t
    else pure ()

/-- The columns a failure sets. -/
def stampFailed (reason : String) (now : Instant) (t : Transfer) : Transfer :=
  { t with status := .declined, failureReason := some reason, settledAt := some now }

/-- `TransfersRepository.markFailed`. -/
def markFailed (me : ℕ) (id : Uuid) (reason : String) (now : Instant) : Service Unit :=
  transaction me [] (Tx.updateTransfer id (stampFailed reason now))

/-- `SettlementWorker.onFailed`: the promise of `markFailed` is not awaited, so its failure is
lost. -/
def onFailed (me : ℕ) (c : ProcessCall) (job : Job) (err : Error) : Service Unit :=
  if job.attempts ≤ job.attemptsMade then
    tryCatch (markFailed me c.transferId err.message c.now) fun _ => pure ()
  else pure ()

/-- A failed attempt counts, and is reported. -/
def jobFailed (me : ℕ) (c : ProcessCall) (job : Job) (err : Error) : Service Unit := do
  onQueue fun q => q.insert c.transferId { job with attemptsMade := job.attemptsMade + 1 }
  onFailed me c { job with attemptsMade := job.attemptsMade + 1 } err

/-- A successful attempt: the job is removed on completion. -/
def jobCompleted (me : ℕ) (c : ProcessCall) : Service Unit := do
  process me c
  onQueue fun q => q.erase c.transferId

/-- One attempt of the queue at the job of a transfer. -/
def runJob (me : ℕ) (c : ProcessCall) : Service Unit := do
  let job ← .read fun w => w.settlementQueue.lookup c.transferId
  match job with
  | none => pure ()
  | some job =>
    if job.attempts ≤ job.attemptsMade then pure ()
    else tryCatch (jobCompleted me c) (jobFailed me c job)

end BankDemo.Transfers
