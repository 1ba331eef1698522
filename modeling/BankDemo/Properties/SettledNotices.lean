import BankDemo.Notifications.Service
import BankDemo.System.Atomic

/-!
# Notices of settled transfers

What the notices of a settlement or a rejection say, against what it did to the accounts. The event
of a movement carries the transfer's amount, which is positive, whoever it is for; the notice takes
the direction from its sign. So the recipient is told what he received. The sender is told the same,
and after a rejection that he received the amount, whatever the fee that came back with it
(`notices_right_iff`).
-/

namespace BankDemo.Notifications

open Ledger Transfers Admin

/-! ## What a notice is made from -/

/-- What a notice of a posted transaction adds to the notices. -/
def noticesOf (up : Bool) (payload : SettledPayload) (s : Inboxes) : List Notification :=
  ((onTxSettled up payload).run s).2.notifications.drop s.notifications.length

theorem noticesOf_eq (up : Bool) (payload : SettledPayload) (s : Inboxes) :
    noticesOf up payload s =
      if (s.preferencesOf payload.userId).wants payload.amountCents && up then
        [settledNotice payload] else [] := by
  unfold noticesOf onTxSettled
  rw [Prog.run_tryCatch, Prog.run_bind]
  simp only [getPreferences, Prog.run_attempt]
  cases (s.preferencesOf payload.userId).wants payload.amountCents
  · simp
  · cases up <;> simp [createNotification]

/-- A customer with the preferences of the schema is told. -/
theorem noticesOf_default (w : World) (payload : SettledPayload) :
    noticesOf true payload ⟨w, [], ∅⟩ = [settledNotice payload] := by
  rw [noticesOf_eq]
  rfl

/-! ## What a call announces -/

/-- The news of a balance. -/
def balanceNews (db : Db) (accountId : Uuid) : List Event :=
  match db.accounts.lookup accountId with
  | some a => [.accountBalanceChanged a.userId accountId a.balanceCents]
  | none => []

theorem emitBalance_run (accountId : Uuid) (w : World) : (emitBalance accountId).run w =
    (.ok (), { w with events := w.events ++ balanceNews w.db accountId }) := by
  rw [emitBalance, query, Prog.run_bind, Prog.run_read, balanceNews]
  dsimp only
  cases w.db.accounts.lookup accountId with
  | none => simp
  | some a => rfl

/-- The news for the recipient. -/
def receivedNews (db : Db) (c : ProcessCall) (t : Transfer) : List Event :=
  match destination t with
  | some toAccountId =>
    match db.accounts.lookup toAccountId with
    | some r =>
      [.transactionSettled r.userId toAccountId c.settledTxId c.transferId t.amountCents,
        .accountBalanceChanged r.userId toAccountId r.balanceCents,
        .transactionCreated r.userId toAccountId c.settledTxId t.amountCents .posted]
    | none => []
  | none => []

theorem announceReceived_run (c : ProcessCall) (t : Transfer) (w : World) :
    (announceReceived c t).run w =
      (.ok (), { w with events := w.events ++ receivedNews w.db c t }) := by
  unfold announceReceived receivedNews
  cases destination t with
  | none => simp
  | some a =>
    dsimp only
    rw [query, Prog.run_bind, Prog.run_read]
    dsimp only
    cases w.db.accounts.lookup a with
    | none => simp
    | some r => simp [emit, Prog.run_bind]

/-- The news of a settlement. -/
def settledNews (db : Db) (c : ProcessCall) (t : Transfer) : List Event :=
  balanceNews db t.fromAccountId ++
    [.transactionSettled t.initiatedByUserId t.fromAccountId
      (t.pendingTransactionId.getD c.settledTxId) c.transferId t.amountCents] ++
    receivedNews db c t ++
    [.adminTransferSettled c.transferId t.initiatedByUserId (isInflow t.kind) t.amountCents t.kind]

theorem announceSettled_run (c : ProcessCall) (t : Transfer) (w : World) :
    (announceSettled c t).run w =
      (.ok (), { w with events := w.events ++ settledNews w.db c t }) := by
  unfold announceSettled settledNews
  simp only [Prog.run_bind, emitBalance_run, announceReceived_run, emit, Prog.run_modify,
    List.append_assoc]

/-- The news of a rejection. -/
def rejectedNews (db : Db) (c : DecideCall) (t : Transfer) : List Event :=
  balanceNews db t.fromAccountId ++
    (t.pendingTransactionId.toList.map fun id =>
      .transactionSettled t.initiatedByUserId t.fromAccountId id c.transferId t.amountCents) ++
    [.adminQueueChanged (-1)]

theorem announceRejected_run (c : DecideCall) (t : Transfer) (w : World) :
    (announceRejected c t).run w =
      (.ok (), { w with events := w.events ++ rejectedNews w.db c t }) := by
  unfold announceRejected rejectedNews announceClosed
  cases t.pendingTransactionId <;>
    simp [Prog.run_bind, emitBalance_run, emit]

theorem not_mem_balanceNews {db : Db} {a userId accountId txId transferId : Uuid}
    {amountCents : ℤ} :
    Event.transactionSettled userId accountId txId transferId amountCents ∉ balanceNews db a := by
  unfold balanceNews
  split <;> simp

/-! ## What an event's transaction moved -/

/-- What a row that was pending and is posted now had held back on an account. -/
def postedRow (db db' : Db) (accountId txId : Uuid) : ℤ :=
  match db.transactions.lookup txId, db'.transactions.lookup txId with
  | some row, some row' =>
    if row.status = .pending ∧ row'.status = .posted ∧ row.accountId = accountId then
      row.amountCents
    else 0
  | _, _ => 0

/-- What a transaction moved on an account on net, between the databases `db` and `db'`: the change
of the balance, and what was held back on it until the transaction was posted. -/
def moved (db db' : Db) (accountId txId : Uuid) : ℤ :=
  db'.balance accountId - db.balance accountId + postedRow db db' accountId txId

/-- The notices of the movements between `w` and `w'` say in what direction they went, and how
much was moved. -/
def RightNotices (w w' : World) : Prop :=
  ∀ userId accountId txId transferId amountCents,
    .transactionSettled userId accountId txId transferId amountCents ∈
      w'.events.drop w.events.length →
    ∀ up s, ∀ n ∈ noticesOf up ⟨userId, amountCents⟩ s,
      n.userId = userId ∧ Says n (moved w.db w'.db accountId txId)

/-- A movement is announced rightly when its payload is what was moved, if anything was. -/
theorem rightNotices_iff {w w' : World} : RightNotices w w' ↔
    ∀ userId accountId txId transferId amountCents,
      .transactionSettled userId accountId txId transferId amountCents ∈
        w'.events.drop w.events.length →
      moved w.db w'.db accountId txId = 0 ∨ moved w.db w'.db accountId txId = amountCents := by
  constructor
  · intro h userId accountId txId transferId amountCents he
    have hnotice := h userId accountId txId transferId amountCents he true ⟨w, [], ∅⟩
    rw [noticesOf_default] at hnotice
    exact (settledNotice_says_iff ..).1 (hnotice _ List.mem_cons_self).2
  · intro h userId accountId txId transferId amountCents he up s n hn
    rw [noticesOf_eq] at hn
    split at hn
    · obtain rfl := List.mem_singleton.1 hn
      exact ⟨rfl, (settledNotice_says_iff ..).2 (h userId accountId txId transferId amountCents he)⟩
    · simp at hn

/-! ## Settlements -/

/-- What the pending row of a transfer holds back on the sender's account. -/
def heldBack (db : Db) (t : Transfer) : ℤ :=
  match t.pendingTransactionId.bind db.transactions.lookup with
  | some row =>
    if row.status = .pending ∧ row.accountId = t.fromAccountId then row.amountCents else 0
  | none => 0

/-- What a settlement credits to the sender's own account. -/
def ownCredit (t : Transfer) : ℤ :=
  if creditedAccount t = some t.fromAccountId then t.amountCents else 0

section Settled

variable {c : ProcessCall} {t : Transfer} {db db' : Db}

theorem balance_of_settled (h : Settled c t db db') (a : Uuid) : db'.balance a =
    db.balance a + if creditedAccount t = some a then t.amountCents else 0 := by
  have hbalance := h.balance
  unfold Credited? at hbalance
  split at hbalance
  · rename_i a' ha'
    rw [hbalance.balance a, ha']
    simp only [Option.some.injEq, eq_comm]
  · rename_i hnone
    rw [hnone]
    simp [Db.balance, hbalance]

/-- A row that was there before is there after the credit. -/
theorem creditFed_lookup_old {T T' : Table Uuid Transaction} (h : CreditFed c t T T')
    {id : Uuid} {row : Transaction} (hrow : T.lookup id = some row) : T'.lookup id = some row := by
  unfold CreditFed at h
  split at h
  · obtain ⟨_, -, -, -, hcreated⟩ := h
    exact hcreated.lookup_old hrow
  · rwa [h]

/-- The row of the sender is posted. -/
theorem postedRow_sender (h : Settled c t db db') :
    postedRow db db' t.fromAccountId (t.pendingTransactionId.getD c.settledTxId) =
      heldBack db t := by
  obtain ⟨T, hfed, hupdated⟩ := h.feed
  unfold postedRow heldBack
  cases hpending : t.pendingTransactionId with
  | some id =>
    rw [hpending] at hupdated
    obtain ⟨row', hrow', hT⟩ := hupdated
    rw [Option.getD_some, Option.bind_some]
    cases hrow : db.transactions.lookup id with
    | none => rfl
    | some row =>
      obtain rfl := Option.some.inj (hrow'.symm.trans (creditFed_lookup_old hfed hrow))
      simp [hT, AList.lookup_insert]
  | none =>
    rw [hpending] at hupdated
    obtain rfl : db'.transactions = T := hupdated
    rw [Option.getD_none, Option.bind_none]
    cases hrow : db.transactions.lookup c.settledTxId with
    | none => rfl
    | some row =>
      simp only [creditFed_lookup_old hfed hrow]
      rw [if_neg]
      rintro ⟨hstatus, hposted, -⟩
      rw [hstatus] at hposted
      cases hposted

/-- The row of the recipient is new. -/
theorem postedRow_recipient (h : Settled c t db db') {a : Uuid} (ha : destination t = some a)
    (accountId : Uuid) : postedRow db db' accountId c.settledTxId = 0 := by
  obtain ⟨T, hfed, -⟩ := h.feed
  have hnew : db.transactions.lookup c.settledTxId = none := by
    have hcredited : creditedAccount t = some a := by simp [creditedAccount, ha]
    have hid : creditTxId c t = c.settledTxId := by simp [creditTxId, ha]
    simp only [CreditFed, hcredited, hid] at hfed
    obtain ⟨_, -, -, -, hcreated⟩ := hfed
    exact hcreated.1
  simp [postedRow, hnew]

theorem moved_sender (h : Settled c t db db') :
    moved db db' t.fromAccountId (t.pendingTransactionId.getD c.settledTxId) =
      heldBack db t + ownCredit t := by
  rw [moved, postedRow_sender h, balance_of_settled h, ownCredit]
  omega

theorem moved_recipient (h : Settled c t db db') {a : Uuid} (ha : destination t = some a) :
    moved db db' a c.settledTxId = t.amountCents := by
  have hcredited : creditedAccount t = some a := by simp [creditedAccount, ha]
  rw [moved, postedRow_recipient h ha, balance_of_settled h, if_pos hcredited]
  omega

end Settled

theorem process_run {me : ℕ} {c : ProcessCall} {w : World} {t : Transfer}
    (ht : w.db.transfers.lookup c.transferId = some t) (hs : settleable t = true)
    (hok : ((process me c).run w).1 = .ok ()) : ∃ db', Settled c t w.db db' ∧
      ((process me c).run w).2 = { w with db := db', events := w.events ++ settledNews db' c t } := by
  have hrun : (process me c).run w = (do
      transaction me (creditedAccount t).toList (settleTx c t)
      announceSettled c t : Service Unit).run w := by
    rw [process, query, Prog.run_bind, Prog.run_read, ht]
    simp only [hs, if_true]
  rw [hrun, Prog.run_bind, run_transaction] at hok ⊢
  cases hbody : settleTx c t w.db with
  | error e =>
    rw [hbody] at hok
    cases hok
  | ok r =>
    refine ⟨r.2, settleTx_ok hbody, ?_⟩
    dsimp only
    rw [announceSettled_run]

/-- Who is told of a settlement. -/
theorem mem_settledNews {db : Db} {c : ProcessCall} {t : Transfer}
    {userId accountId txId transferId : Uuid} {amountCents : ℤ} :
    .transactionSettled userId accountId txId transferId amountCents ∈ settledNews db c t ↔
      (userId = t.initiatedByUserId ∧ accountId = t.fromAccountId ∧
        txId = t.pendingTransactionId.getD c.settledTxId ∧ transferId = c.transferId ∧
        amountCents = t.amountCents) ∨
      ∃ r, destination t = some accountId ∧ db.accounts.lookup accountId = some r ∧
        userId = r.userId ∧ txId = c.settledTxId ∧ transferId = c.transferId ∧
        amountCents = t.amountCents := by
  have hreceived : .transactionSettled userId accountId txId transferId amountCents ∈
      receivedNews db c t ↔ ∃ r, destination t = some accountId ∧
        db.accounts.lookup accountId = some r ∧ userId = r.userId ∧ txId = c.settledTxId ∧
        transferId = c.transferId ∧ amountCents = t.amountCents := by
    unfold receivedNews
    cases destination t with
    | none => simp
    | some a =>
      dsimp only
      cases hr : db.accounts.lookup a with
      | none =>
        simp only [List.not_mem_nil, Option.some.injEq, false_iff]
        rintro ⟨r, rfl, hr', -⟩
        rw [hr] at hr'
        cases hr'
      | some r =>
        simp only [List.mem_cons, Event.transactionSettled.injEq, reduceCtorEq, List.not_mem_nil,
          or_false, Option.some.injEq]
        constructor
        · rintro ⟨huser, rfl, htx, hid, hamount⟩
          exact ⟨r, rfl, hr, huser, htx, hid, hamount⟩
        · rintro ⟨r', rfl, hr', huser, htx, hid, hamount⟩
          obtain rfl := Option.some.inj (hr.symm.trans hr')
          exact ⟨huser, rfl, htx, hid, hamount⟩
  simp only [settledNews, List.mem_append, not_mem_balanceNews, false_or, List.mem_singleton,
    Event.transactionSettled.injEq, reduceCtorEq, or_false, hreceived]

theorem settled_right_iff {c : ProcessCall} {t : Transfer} {w : World} {db' : Db}
    (h : Settled c t w.db db') :
    RightNotices w { w with db := db', events := w.events ++ settledNews db' c t } ↔
      heldBack w.db t + ownCredit t = 0 ∨ heldBack w.db t + ownCredit t = t.amountCents := by
  rw [rightNotices_iff]
  simp only [List.drop_left, mem_settledNews]
  constructor
  · intro hright
    have hsender := hright _ _ _ _ _ (.inl ⟨rfl, rfl, rfl, rfl, rfl⟩)
    rwa [moved_sender h] at hsender
  · rintro hfits userId accountId txId transferId amountCents (hsender | hrecipient)
    · obtain ⟨-, rfl, rfl, -, rfl⟩ := hsender
      rwa [moved_sender h]
    · obtain ⟨r, hdestination, -, -, rfl, -, rfl⟩ := hrecipient
      exact .inr (moved_recipient h hdestination)

/-! ## Rejections -/

theorem moved_rejected {c : DecideCall} {t : Transfer} {db db' : Db} (h : Rejected c t db db')
    {id : Uuid} (hid : t.pendingTransactionId = some id) :
    moved db db' t.fromAccountId id = t.amountCents + t.feeCents := by
  have hrow : postedRow db db' t.fromAccountId id = 0 := by
    have hfeed := h.feed
    rw [hid] at hfeed
    obtain ⟨row, hrow, hT⟩ := hfeed
    simp [postedRow, hrow, hT, AList.lookup_insert, markReversed]
  rw [moved, hrow, h.refunded.balance.balance, if_pos rfl]
  omega

theorem reject_run {me : ℕ} {c : DecideCall} {w : World} {t : Transfer}
    (ht : w.db.transfers.lookup c.transferId = some t) (hrejected : c.decision = .rejected)
    (hok : ((decideTransfer me c).run w).1 = .ok ()) : ∃ db', Rejected c t w.db db' ∧
      ((decideTransfer me c).run w).2 =
        { w with db := db', events := w.events ++ rejectedNews db' c t } := by
  unfold decideTransfer at hok ⊢
  split at hok
  · cases hok
  · rename_i hreason
    rw [if_neg hreason]
    rw [query, Prog.run_bind, Prog.run_read, ht] at hok ⊢
    dsimp only at hok ⊢
    split at hok
    · cases hok
    · rename_i hflagged
      rw [if_neg hflagged]
      split at hok
      · cases hok
      · rename_i hreviewed
        rw [if_neg hreviewed]
        simp only [decideReviewable, hrejected] at hok ⊢
        rw [Prog.run_bind, run_transaction] at hok ⊢
        cases hbody : rejectTx c t w.db with
        | error e =>
          rw [hbody] at hok
          cases hok
        | ok r =>
          refine ⟨r.2, rejectTx_ok hbody, ?_⟩
          dsimp only
          rw [announceRejected_run]

theorem rejected_right_iff {c : DecideCall} {t : Transfer} {w : World} {db' : Db}
    (h : Rejected c t w.db db') :
    RightNotices w { w with db := db', events := w.events ++ rejectedNews db' c t } ↔
      t.pendingTransactionId = none ∨ t.feeCents = 0 ∨ t.amountCents + t.feeCents = 0 := by
  have hmem : ∀ userId accountId txId transferId amountCents,
      .transactionSettled userId accountId txId transferId amountCents ∈ rejectedNews db' c t ↔
        t.pendingTransactionId = some txId ∧ userId = t.initiatedByUserId ∧
          accountId = t.fromAccountId ∧ transferId = c.transferId ∧ amountCents = t.amountCents := by
    intro userId accountId txId transferId amountCents
    simp only [rejectedNews, List.mem_append, not_mem_balanceNews, false_or, List.mem_map,
      Option.mem_toList, Event.transactionSettled.injEq, List.mem_singleton, reduceCtorEq, or_false]
    constructor
    · rintro ⟨id, hid, huser, haccount, htx, htransfer, hamount⟩
      rw [← htx]
      exact ⟨hid, huser.symm, haccount.symm, htransfer.symm, hamount.symm⟩
    · rintro ⟨hid, huser, haccount, htransfer, hamount⟩
      exact ⟨txId, hid, huser.symm, haccount.symm, rfl, htransfer.symm, hamount.symm⟩
  rw [rightNotices_iff]
  simp only [List.drop_left, hmem]
  constructor
  · intro hright
    cases hid : t.pendingTransactionId with
    | none => exact .inl rfl
    | some id =>
      have hclosed := hright _ _ _ _ _ ⟨hid, rfl, rfl, rfl, rfl⟩
      rw [moved_rejected h hid] at hclosed
      right
      omega
  · rintro hfits userId accountId txId transferId amountCents ⟨hid, -, rfl, -, rfl⟩
    rw [moved_rejected h hid]
    rw [hid] at hfits
    simp only [reduceCtorEq, false_or] at hfits
    omega

/-! ## Both -/

/-- What emits `TransactionSettled`: a settlement or a rejection. -/
inductive Closing
  | settle (me : ℕ) (c : ProcessCall)
  | reject (me : ℕ) (c : DecideCall)

namespace Closing

def call : Closing → Service Unit
  | settle me c => process me c
  | reject me c => decideTransfer me c

def transferId : Closing → Uuid
  | settle _ c => c.transferId
  | reject _ c => c.transferId

/-- The call is about to close the transfer. -/
def Closes (t : Transfer) : Closing → Prop
  | settle _ _ => settleable t = true
  | reject _ c => c.decision = .rejected

/-- The payload is what is moved: on the sender's account, what the pending row held back and what
the settlement credits make up the transfer's amount, or nothing; no fee comes back. -/
def Fits (db : Db) (t : Transfer) : Closing → Prop
  | settle _ _ =>
    heldBack db t + ownCredit t = 0 ∨ heldBack db t + ownCredit t = t.amountCents
  | reject _ _ => t.pendingTransactionId = none ∨ t.feeCents = 0 ∨ t.amountCents + t.feeCents = 0

end Closing

/-- **The notices state the right direction** and amount exactly if the payloads fit. -/
theorem notices_right_iff (k : Closing) {w : World} {t : Transfer}
    (ht : w.db.transfers.lookup k.transferId = some t) (hcloses : k.Closes t)
    (hok : (k.call.run w).1 = .ok ()) :
    RightNotices w (k.call.run w).2 ↔ k.Fits w.db t := by
  cases k with
  | settle me c =>
    obtain ⟨db', hsettled, hrun⟩ := process_run ht hcloses hok
    rw [Closing.call, hrun]
    exact settled_right_iff hsettled
  | reject me c =>
    obtain ⟨db', hrejected, hrun⟩ := reject_run ht hcloses hok
    rw [Closing.call, hrun]
    exact rejected_right_iff hrejected

/-- A transfer as it is made holds back the amount and the fee. -/
theorem heldBack_of_initiated {c : InitiateCall} {t : Transfer} {db db' : Db}
    (h : Initiated c t db db') (hpending : t.pendingTransactionId = some c.pendingTxId) :
    heldBack db' t = -(t.amountCents + t.feeCents) := by
  obtain ⟨row, haccount, hstatus, hamount, hcreated⟩ := h.feed
  have hrow : db'.transactions.lookup c.pendingTxId = some row := by
    rw [hcreated.lookup, if_pos rfl]
  simp [heldBack, hpending, hrow, hstatus, haccount, hamount]

/-- The sender of an outgoing transfer is never told rightly: its pending row holds back the amount
and the fee. -/
theorem sender_never_right {me : ℕ} {c : ProcessCall} {w : World} {t : Transfer}
    (ht : w.db.transfers.lookup c.transferId = some t) (hs : settleable t = true)
    (hok : ((process me c).run w).1 = .ok ())
    (hheld : heldBack w.db t = -(t.amountCents + t.feeCents)) (hpos : 0 < t.amountCents)
    (hfee : 0 ≤ t.feeCents) (hout : creditedAccount t ≠ some t.fromAccountId) :
    ¬ RightNotices w ((process me c).run w).2 := by
  obtain ⟨db', hsettled, hrun⟩ := process_run ht hs hok
  rw [hrun, settled_right_iff hsettled, ownCredit, if_neg hout, hheld]
  omega

/-! ## Ann pays Bob -/

/-- Ann's payment of 25.00 to Bob as transfer 100, with its pending row 101. -/
def samplePayment (requiresReview : Bool) : World where
  db :=
    let row : Transaction := ⟨10, .p2pOut, .pending, -2500, "To Bob", .transfer, none, 0, none,
      some ⟨some 100, none, none⟩⟩
    let payment : Transfer := ⟨.p2p, .pending, 10, some 20, none, 2500, 0, true, 1, none, none,
      "key-100", some 101, none, requiresReview, none, none, none, none⟩
    { sampleDb with
      transactions := (∅ : Table Uuid Transaction).insert 101 row
      transfers := (∅ : Table Uuid Transfer).insert 100 payment }
  locks := fun _ => none
  settlementQueue := ∅
  overrideRate := ∅
  events := []

/-- Her payment is rejected: she is told that she received 25.00. -/
theorem rejection_right : RightNotices (samplePayment true)
    ((decideTransfer 0 (sampleDecide .rejected 100 200)).run (samplePayment true)).2 := by
  refine (notices_right_iff (.reject 0 (sampleDecide .rejected 100 200)) rfl rfl ?_).2
    (.inr (.inl rfl))
  decide +kernel

/-- Her payment is settled: she is told that she received 25.00, too. -/
theorem sender_told_received : ¬ RightNotices (samplePayment false)
    ((process 0 (sampleSettle 100 200)).run (samplePayment false)).2 := by
  intro h
  have hmoved := rightNotices_iff.1 h 1 10 101 100 2500 (by decide +kernel)
  revert hmoved
  decide +kernel

end BankDemo.Notifications
