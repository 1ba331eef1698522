import BankDemo.Admin.Transfers

/-!
# Wires

`AdminWiresService.approve` approves a held wire from the wires dashboard, with the same effect as
an approval by `decideTransfer`. `AdminWiresService.reverse` refunds the sender of an outbound wire
that is not reversed yet, whether it has settled or not; it debits the amount to cash, and leaves
the review columns as they are.
-/

namespace BankDemo.Admin

open Ledger Transfers

/-- A call of `approve`, with the settlement it asks for. -/
structure ApproveCall where
  actorUserId : Uuid
  reason : Option String
  now : Instant
  settle : ForceSettleCall

/-- The transfer a call is about. -/
def ApproveCall.transferId (c : ApproveCall) : Uuid := c.settle.transferId

/-- Stamp the row, settle and tell the reviewers. -/
def approveReviewable (me : ℕ) (c : ApproveCall) : Service Unit := do
  transaction me [] (Tx.executeUpdateTransfer c.transferId
    (stampApproved c.actorUserId c.reason c.now))
  tryCatch (forceSettle me c.settle) fun _ => pure ()
  emit (.adminQueueChanged (-1))

/-- `AdminWiresService.approve`. -/
def approveWire (me : ℕ) (c : ApproveCall) : Service Unit := do
  let transfer ← query fun db => db.transfers.lookup c.transferId
  match transfer with
  | none => throw (.notFound "TRANSFER_NOT_FOUND")
  | some t =>
    if t.kind ≠ .wireOut then throw (.badRequest "ONLY_WIRE_OUT_APPROVABLE")
    else if !t.requiresReview then throw (.badRequest "NOT_FLAGGED_FOR_REVIEW")
    else if t.reviewedAt.isSome then throw (.badRequest "ALREADY_REVIEWED")
    else approveReviewable me c

/-! ## Reversals -/

/-- A call of `reverse`, with the id it draws. -/
structure ReverseCall where
  actorUserId : Uuid
  transferId : Uuid
  reason : String
  reversalTxId : Uuid
  now : Instant

/-- The row a reversal adds to the sender's feed. -/
def reversalRow (c : ReverseCall) (t : Transfer) : Transaction where
  accountId := t.fromAccountId
  kind := .adjustment
  status := .posted
  amountCents := t.amountCents + t.feeCents
  description := JsString.slice s!"Wire reversal — {c.reason}" 280
  category := .transfer
  note := none
  occurredAt := c.now
  postedAt := some c.now
  metadata := some ⟨some c.transferId, none, some c.actorUserId⟩

/-- `transaction.updateMany` on an optional id. -/
def flipReversed (id : Option Uuid) (f : Transaction → Transaction) : Tx Unit :=
  match id with
  | some id => Tx.updateManyTransaction id f
  | none => pure ()

/-- The columns a reversal sets. -/
def stampReversed (c : ReverseCall) (t row : Transfer) : Transfer :=
  { row with
    status := .reversed
    failureReason := some c.reason
    settledAt := some (t.settledAt.getD c.now) }

/-- The transaction of a reversal, for the transfer as it was read. -/
def reverseTx (c : ReverseCall) (t : Transfer) : Tx Unit := do
  refundSender t .cash fun postings => {
    description := s!"Reverse wire (admin: {c.actorUserId})"
    occurredAt := c.now
    source := .adminReverse c.transferId
    referenceId := some c.transferId
    postings }
  Tx.createTransaction c.reversalTxId (reversalRow c t)
  flipReversed t.pendingTransactionId (markReversed c.now)
  flipReversed t.settledTransactionId fun row => { row with status := .reversed }
  Tx.updateTransfer c.transferId (stampReversed c t)

/-- The rows of the feed under an optional id, if there are any, were changed by `f`. -/
def Flipped (id : Option Uuid) (f : Transaction → Transaction) (T T' : Table Uuid Transaction) :
    Prop :=
  match id with
  | some id => Table.UpdatedMany id f T T'
  | none => T' = T

/-- What a reversal did. -/
structure Reversed (c : ReverseCall) (t : Transfer) (db db' : Db) : Prop where
  refunded : Refunded t (.adminReverse c.transferId) .cash db db'
  feed : ∃ T T', Table.Created c.reversalTxId (reversalRow c t) db.transactions T ∧
    Flipped t.pendingTransactionId (markReversed c.now) T T' ∧
    Flipped t.settledTransactionId (fun row => { row with status := .reversed }) T'
      db'.transactions
  transfers : Table.Updated c.transferId (stampReversed c t) db.transfers db'.transfers

theorem flipReversed_ok {id : Option Uuid} {f : Transaction → Transaction} {db : Db}
    {r : Unit × Db} (h : flipReversed id f db = .ok r) :
    ∃ T, r.2 = { db with transactions := T } ∧ Flipped id f db.transactions T := by
  cases id with
  | none =>
    obtain rfl := tx_pure_ok.1 h
    exact ⟨_, rfl, rfl⟩
  | some id => exact Tx.updateManyTransaction_ok h

theorem reverseTx_ok {c : ReverseCall} {t : Transfer} {db : Db} {r : Unit × Db}
    (h : reverseTx c t db = .ok r) : Reversed c t db r.2 := by
  unfold reverseTx at h
  obtain ⟨_, db₁, h₁, h⟩ := tx_bind_ok.1 h
  obtain ⟨_, db₂, h₂, h⟩ := tx_bind_ok.1 h
  obtain ⟨_, db₃, h₃, h⟩ := tx_bind_ok.1 h
  obtain ⟨_, db₄, h₄, h⟩ := tx_bind_ok.1 h
  obtain ⟨⟨hbalance, hbooked⟩, hfeed, htransfers⟩ := refundSender_ok (fun _ => rfl) h₁
  obtain ⟨hid, hdb₂⟩ := Tx.createTransaction_ok h₂
  obtain ⟨T, hdb₃, hT⟩ := flipReversed_ok h₃
  obtain ⟨T', hdb₄, hT'⟩ := flipReversed_ok h₄
  obtain ⟨row, hrow, hr⟩ := Tx.updateTransfer_ok h
  simp only at hbalance hbooked hfeed htransfers hdb₂ hdb₃ hdb₄
  subst hdb₂ hdb₃ hdb₄
  rw [hfeed] at hid hT
  rw [hr]
  refine ⟨⟨hbalance, hbooked.of_eq rfl rfl⟩, ⟨_, T, ⟨hid, rfl⟩, hT, hT'⟩, row, ?_, ?_⟩
  · rw [← htransfers]
    exact hrow
  · rw [← htransfers]

/-- The events and the notice for the sender, whose account was read again. -/
def announceReversed (c : ReverseCall) (t : Transfer) (fresh : Account) : Service Unit := do
  emit (.accountBalanceChanged fresh.userId t.fromAccountId fresh.balanceCents)
  emit (.transactionCreated fresh.userId t.fromAccountId c.reversalTxId
    (t.amountCents + t.feeCents) .posted)
  match t.pendingTransactionId with
  | some id => do
    emit (.transactionUpdated fresh.userId t.fromAccountId id
      (some ⟨-(t.amountCents + t.feeCents), c.now, "Wire (reversed)", .transfer, .reversed⟩) false)
    emit (.wireReversedNotice fresh.userId t.amountCents c.reason)
  | none => emit (.wireReversedNotice fresh.userId t.amountCents c.reason)

/-- What follows the commit of a reversal. -/
def afterReverse (c : ReverseCall) (t : Transfer) : Service Unit := do
  let fresh ← query fun db => db.accounts.lookup t.fromAccountId
  match fresh with
  | some a => announceReversed c t a
  | none => pure ()

theorem quiet_afterReverse (c : ReverseCall) (t : Transfer) : Quiet (afterReverse c t) := by
  refine quiet_bind (quiet_query _) fun fresh => ?_
  cases fresh with
  | none => exact quiet_pure ()
  | some a =>
    refine quiet_bind (quiet_emit _) fun _ => quiet_bind (quiet_emit _) fun _ => ?_
    cases t.pendingTransactionId with
    | none => exact quiet_emit _
    | some id => exact quiet_bind (quiet_emit _) fun _ => quiet_emit _

/-- The transaction of a reversal and what follows it. -/
def reverseReadable (me : ℕ) (c : ReverseCall) (t : Transfer) : Service Unit := do
  transaction me [t.fromAccountId] (reverseTx c t)
  afterReverse c t

/-- `AdminWiresService.reverse`. -/
def reverseWire (me : ℕ) (c : ReverseCall) : Service Unit := do
  let transfer ← query fun db => db.transfers.lookup c.transferId
  match transfer with
  | none => throw (.notFound "TRANSFER_NOT_FOUND")
  | some t =>
    if t.kind ≠ .wireOut then throw (.badRequest "ONLY_WIRE_OUT_REVERSIBLE")
    else if t.status = .reversed then throw (.badRequest "ALREADY_REVERSED")
    else reverseReadable me c t

end BankDemo.Admin
