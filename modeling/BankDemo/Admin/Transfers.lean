import BankDemo.Transfers.Service

/-!
# Reviews

`AdminTransfersService.decide` approves or rejects a transfer held for review. The check that it
was not reviewed yet is on the row as it was read; the writes that follow are keyed by the id
alone. A rejection refunds the sender in one transaction (`rejectTx`), which `Rejected` describes
(`rejectTx_ok`).

`refundSender` is the part that a rejection shares with the reversal of a wire
(`Admin/Wires.lean`): they differ in the account that is debited.
-/

namespace BankDemo.Admin

open Ledger Transfers

/-! ## Refunds -/

/-- The postings of a refund that takes the amount from `source`. -/
def refundLegs (source : LedgerCode) (t : Transfer) : List PostingInput :=
  let account := accountSubLedgerCode t.fromAccountId
  [debit source t.amountCents, credit account t.amountCents] ++
    feeLegs t.feeCents .feeRevenue account

theorem net_refundLegs {source : LedgerCode} {t : Transfer} (h : 0 ≤ t.feeCents) {a : Uuid}
    (hs : source ≠ .account a) : DoubleEntry.net (legs (refundLegs source t)) (.account a) =
      if a = t.fromAccountId then t.amountCents + t.feeCents else 0 := by
  simp only [refundLegs, accountSubLedgerCode]
  rw [legs_append, DoubleEntry.net_append, net_debit_credit, net_feeLegs h]
  by_cases ha : a = t.fromAccountId
  · subst ha
    simp [hs]
  · have ha' : t.fromAccountId ≠ a := fun h => ha h.symm
    simp [hs, ha, ha']

theorem positive_refundLegs {source : LedgerCode} {t : Transfer} (h : 0 < t.amountCents) :
    Positive (legs (refundLegs source t)) := by
  simp only [refundLegs]
  rw [legs_append]
  exact (positive_pair h h).append (positive_feeLegs _ _ _)

/-- Return amount and fee to the sender, with the entry described. -/
def refundSender (t : Transfer) (source : LedgerCode) (entry : List PostingInput → JournalInput) :
    Tx Unit := do
  let sender ← Tx.query fun db => db.accounts.lookup t.fromAccountId
  match sender with
  | none => throw (.internal "Sender account vanished")
  | some sender => do
    ensureAccountLedger t.fromAccountId sender.userId
    Tx.incrementBalance t.fromAccountId (t.amountCents + t.feeCents)
    let _ ← post (entry (refundLegs source t))
    pure ()

/-- What a refund did. -/
structure Refunded (t : Transfer) (src : JournalSource) (source : LedgerCode) (db db' : Db) :
    Prop where
  balance : Credited t.fromAccountId (t.amountCents + t.feeCents) db db'
  booked : Booked src (legs (refundLegs source t)) db db'

theorem refundSender_ok {t : Transfer} {source : LedgerCode}
    {entry : List PostingInput → JournalInput} {db : Db} {r : Unit × Db}
    (hentry : ∀ ps, (entry ps).postings = ps) (h : refundSender t source entry db = .ok r) :
    Refunded t (entry (refundLegs source t)).source source db r.2 ∧
      r.2.transactions = db.transactions ∧ r.2.transfers = db.transfers := by
  unfold refundSender at h
  rw [Tx.query_bind] at h
  cases hsender : db.accounts.lookup t.fromAccountId with
  | none =>
    simp only [hsender] at h
    exact absurd h tx_throw_ok
  | some sender =>
    simp only [hsender] at h
    obtain ⟨_, db₁, h₁, h⟩ := tx_bind_ok.1 h
    obtain ⟨_, db₂, h₂, h⟩ := tx_bind_ok.1 h
    obtain ⟨_, db₃, h₃, h⟩ := tx_bind_ok.1 h
    obtain rfl := tx_pure_ok.1 h
    obtain ⟨L, hdb₁, hL, -⟩ := ensureAccountLedger_ok h₁
    obtain ⟨acct, hacct, hdb₂⟩ := Tx.incrementBalance_ok h₂
    have hpost : Posted _ db₂ db₃ := post_ok h₃
    obtain ⟨L', -, -, hdb₃⟩ := hpost.write
    simp only at hdb₁ hdb₂ hdb₃ ⊢
    subst hdb₁ hdb₂
    have hbooked : Booked _ _ db db₃ := hpost.booked hL rfl
    rw [hentry] at hbooked
    refine ⟨⟨⟨acct, hacct, ?_⟩, hbooked⟩, ?_, ?_⟩
    · rw [hdb₃]
    · rw [hdb₃]
    · rw [hdb₃]

/-! ## Decisions -/

/-- A call of `decide`, with the settlement an approval asks for. -/
structure DecideCall where
  actorUserId : Uuid
  decision : ReviewDecision
  reason : Option String
  now : Instant
  settle : ForceSettleCall

/-- The transfer a call is about. -/
def DecideCall.transferId (c : DecideCall) : Uuid := c.settle.transferId

/-- The columns an approval sets. -/
def stampApproved (actorUserId : Uuid) (reason : Option String) (now : Instant) (t : Transfer) :
    Transfer :=
  { t with
    reviewDecision := some .approved
    reviewedAt := some now
    reviewedByUserId := some actorUserId
    reviewReason := reason }

/-- The columns a rejection sets. -/
def stampRejected (actorUserId : Uuid) (reason : String) (now : Instant) (t : Transfer) :
    Transfer :=
  { t with
    status := .reversed
    reviewDecision := some .rejected
    reviewedAt := some now
    reviewedByUserId := some actorUserId
    reviewReason := some reason
    failureReason := some reason }

/-- The columns a reversal sets on the pending transaction. -/
def markReversed (now : Instant) (row : Transaction) : Transaction :=
  { row with status := .reversed, postedAt := some now }

/-- The transaction of a rejection, for the transfer as it was read. -/
def rejectTx (c : DecideCall) (t : Transfer) : Tx Unit := do
  refundSender t .pendingOut fun postings => {
    description := s!"Reverse {t.kind.text} (rejected by admin)"
    occurredAt := c.now
    source := .reject c.transferId
    referenceId := some c.transferId
    postings }
  Tx.updateTransaction? t.pendingTransactionId (markReversed c.now)
  Tx.executeUpdateTransfer c.transferId
    (stampRejected c.actorUserId (c.reason.getD "Rejected by admin") c.now)

/-- What a rejection did. -/
structure Rejected (c : DecideCall) (t : Transfer) (db db' : Db) : Prop where
  refunded : Refunded t (.reject c.transferId) .pendingOut db db'
  feed : Table.Updated? t.pendingTransactionId (markReversed c.now) db.transactions
    db'.transactions
  transfers : Table.UpdatedMany c.transferId
    (stampRejected c.actorUserId (c.reason.getD "Rejected by admin") c.now)
    db.transfers db'.transfers

theorem rejectTx_ok {c : DecideCall} {t : Transfer} {db : Db} {r : Unit × Db}
    (h : rejectTx c t db = .ok r) : Rejected c t db r.2 := by
  unfold rejectTx at h
  obtain ⟨_, db₁, h₁, h⟩ := tx_bind_ok.1 h
  obtain ⟨_, db₂, h₂, h⟩ := tx_bind_ok.1 h
  obtain ⟨⟨hbalance, hbooked⟩, hfeed, htransfers⟩ := refundSender_ok (fun _ => rfl) h₁
  obtain ⟨T, hdb₂, hT⟩ := Tx.updateTransaction?_ok h₂
  obtain ⟨T', hr, hT'⟩ := Tx.executeUpdateTransfer_ok h
  simp only at hbalance hbooked hfeed htransfers hdb₂
  subst hdb₂
  rw [hr]
  rw [hfeed] at hT
  simp only [htransfers] at hT'
  exact ⟨⟨hbalance, hbooked.of_eq rfl rfl⟩, hT, hT'⟩

/-- Tell the sender that the pending transaction is closed. -/
def announceClosed (c : DecideCall) (t : Transfer) : Service Unit :=
  match t.pendingTransactionId with
  | some id =>
    emit (.transactionSettled t.initiatedByUserId t.fromAccountId id c.transferId t.amountCents)
  | none => pure ()

/-- The events after a rejection has committed. -/
def announceRejected (c : DecideCall) (t : Transfer) : Service Unit := do
  emitBalance t.fromAccountId
  announceClosed c t
  emit (.adminQueueChanged (-1))

theorem quiet_announceRejected (c : DecideCall) (t : Transfer) : Quiet (announceRejected c t) := by
  refine quiet_bind (quiet_emitBalance _) fun _ => quiet_bind ?_ fun _ => quiet_emit _
  unfold announceClosed
  split
  · exact quiet_emit _
  · exact quiet_pure ()

/-- `decideTransfer`, the reviewable transfer having been read. -/
def decideReviewable (me : ℕ) (c : DecideCall) (t : Transfer) : Service Unit :=
  match c.decision with
  | .approved => do
    transaction me [] (Tx.executeUpdateTransfer c.transferId
      (stampApproved c.actorUserId c.reason c.now))
    emit (.adminQueueChanged (-1))
    tryCatch (forceSettle me c.settle) fun _ => pure ()
  | .rejected => do
    transaction me [t.fromAccountId] (rejectTx c t)
    announceRejected c t

/-- `AdminTransfersService.decide`. -/
def decideTransfer (me : ℕ) (c : DecideCall) : Service Unit :=
  if c.decision = .rejected ∧ JsString.trim (c.reason.getD "") = "" then
    throw (.badRequest "reason required when rejecting")
  else do
    let transfer ← query fun db => db.transfers.lookup c.transferId
    match transfer with
    | none => throw (.notFound "TRANSFER_NOT_FOUND")
    | some t =>
      if !t.requiresReview then throw (.badRequest "Transfer is not flagged for review")
      else if t.reviewedAt.isSome then throw (.badRequest "Transfer already reviewed")
      else decideReviewable me c t

end BankDemo.Admin
