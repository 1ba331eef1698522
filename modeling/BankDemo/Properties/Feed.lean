import BankDemo.System.Lifecycle

/-!
# The feed and the balance

What a customer sees is the feed: the transactions of the account, of which the pending and the
posted ones count. Transfers, settlements and rejections change balance and feed alike. A reversal
of a wire does not: it takes the row of the wire out of the count and adds a row for the refund as
well, so the feed shows the refund twice. The balance is therefore the start plus the feed minus
what reversals of wires returned (`feed_reconciles`).

The invariant (`FeedState`) ties every transfer to its row of the feed (`Entered`): one of them is
reversed exactly when the other is.
-/

namespace BankDemo

open Ledger Transfers Admin

/-! ## What counts -/

/-- What a row of the feed counts. -/
def counted (row : Transaction) : ℤ :=
  if row.status = .pending ∨ row.status = .posted then row.amountCents else 0

/-- The sum of the pending and posted transactions of an account. -/
def Db.feedSum (db : Db) (a : Uuid) : ℤ :=
  db.transactions.total fun row => if row.accountId = a then counted row else 0

/-- What the reversal of a wire by an admin returned, zero for other transfers. -/
def reversalRefund (t : Transfer) : ℤ :=
  if t.kind = .wireOut ∧ t.status = .reversed ∧ t.reviewDecision ≠ some .rejected then
    t.amountCents + t.feeCents
  else 0

/-- What reversals of wires have returned to an account. -/
def Db.reversalRefunds (db : Db) (a : Uuid) : ℤ :=
  db.transfers.total fun t => if t.fromAccountId = a then reversalRefund t else 0

/-- The calls that customers, the worker and the reviewers make on transfers. -/
def Call.onFeed : Call → Bool
  | .initiate _ | .process _ | .decide _ | .approve _ | .reverse _ => true
  | _ => false

/-- The ids drawn in a sequence. -/
def drawn (tr : List (Step World Call)) : List Uuid := (tr.map fun x => x.call.draws).flatten

/-- A review of a transfer that is reversed already. -/
def reviewsReversed (db : Db) : Call → Bool
  | .decide c => (db.transfers.lookup c.transferId).map Transfer.status = some .reversed
  | .approve c => (db.transfers.lookup c.transferId).map Transfer.status = some .reversed
  | _ => false

/-! ## The invariant -/

/-- The row of the feed that the debit of a transfer has made. -/
structure Entered (T : Table Uuid Transaction) (t : Transfer) (p : Uuid) (row : Transaction) :
    Prop where
  pending : t.pendingTransactionId = some p
  lookup : T.lookup p = some row
  account : row.accountId = t.fromAccountId
  amount : row.amountCents = -(t.amountCents + t.feeCents)
  reversed : row.status = .reversed ↔ t.status = .reversed
  declined : row.status ≠ .declined

/-- Balances, feed and transfers agree, and `used` has the ids of all rows. -/
structure FeedState (used : List Uuid) (base : Uuid → ℤ) (db : Db) : Prop where
  balance : ∀ a, db.balance a = base a + db.feedSum a - db.reversalRefunds a
  entered : ∀ id t, db.transfers.lookup id = some t → ∃ p row, Entered db.transactions t p row
  apart : ∀ id id' t t', db.transfers.lookup id = some t → db.transfers.lookup id' = some t' →
    t.pendingTransactionId = t'.pendingTransactionId → id = id'
  /-- The settlement of a wire draws an id for a row that it does not make. -/
  unmade : ∀ id t s, db.transfers.lookup id = some t → t.kind = .wireOut →
    t.settledTransactionId = some s → s ∈ used ∧ db.transactions.lookup s = none
  rejected : ∀ id t, db.transfers.lookup id = some t → t.reviewDecision = some .rejected →
    t.status = .reversed
  used : ∀ id row, db.transactions.lookup id = some row → id ∈ used

/-- The feed got a new row, perhaps. -/
def Added (new : Option (Uuid × Transaction)) (T T' : Table Uuid Transaction) : Prop :=
  match new with
  | some n => Table.Created n.1 n.2 T T'
  | none => T' = T

/-- The feed got a new row, perhaps, and the row of a transfer was changed. -/
def FeedMoved (new : Option (Uuid × Transaction)) (p : Uuid) (row row' : Transaction)
    (T T' : Table Uuid Transaction) : Prop :=
  ∃ T₁, Added new T T₁ ∧ Table.Replaced p row row' T₁ T'

/-- What the new row counts on an account. -/
def newCounted (new : Option (Uuid × Transaction)) (a : Uuid) : ℤ :=
  match new with
  | some n => if n.2.accountId = a then counted n.2 else 0
  | none => 0

section Feed

variable {new : Option (Uuid × Transaction)} {p : Uuid} {row row' : Transaction}
  {T T' : Table Uuid Transaction}

theorem Added.lookup_old (h : Added new T T') {x : Uuid} {r : Transaction}
    (hx : T.lookup x = some r) : T'.lookup x = some r := by
  cases new with
  | none =>
    obtain rfl : T' = T := h
    exact hx
  | some n => exact Table.Created.lookup_old h hx

theorem Added.origin (h : Added new T T') {x : Uuid} {r : Transaction}
    (hx : T'.lookup x = some r) : T.lookup x = some r ∨ ∃ n ∈ new, x = n.1 := by
  cases new with
  | none =>
    obtain rfl : T' = T := h
    exact .inl hx
  | some n =>
    rw [Table.Created.lookup h] at hx
    split at hx
    · rename_i hxn
      exact .inr ⟨n, rfl, hxn⟩
    · exact .inl hx

theorem FeedMoved.lookup_self (h : FeedMoved new p row row' T T') : T'.lookup p = some row' := by
  obtain ⟨T₁, -, hrow⟩ := h
  rw [hrow.lookup, if_pos rfl]

theorem FeedMoved.lookup_old (h : FeedMoved new p row row' T T') {x : Uuid} {r : Transaction}
    (hxp : x ≠ p) (hx : T.lookup x = some r) : T'.lookup x = some r := by
  obtain ⟨T₁, hnew, hrow⟩ := h
  rw [hrow.lookup, if_neg hxp]
  exact hnew.lookup_old hx

theorem FeedMoved.origin (h : FeedMoved new p row row' T T') {x : Uuid} {r : Transaction}
    (hx : T'.lookup x = some r) :
    x = p ∨ T.lookup x = some r ∨ ∃ n ∈ new, x = n.1 := by
  obtain ⟨T₁, hnew, hrow⟩ := h
  rw [hrow.lookup] at hx
  split at hx
  · rename_i hxp
    exact .inl hxp
  · exact .inr (hnew.origin hx)

/-- A row that is not there is not made, unless it is the new one. -/
theorem FeedMoved.lookup_none (h : FeedMoved new p row row' T T') (hp : T.lookup p = some row)
    {x : Uuid} (hx : T.lookup x = none) (hnew : ∀ n ∈ new, x ≠ n.1) : T'.lookup x = none := by
  by_contra hne
  obtain ⟨r, hr⟩ := Option.ne_none_iff_exists'.1 hne
  rcases h.origin hr with rfl | hold | ⟨n, hn, hxn⟩
  · rw [hp] at hx
    cases hx
  · rw [hold] at hx
    cases hx
  · exact hnew n hn hxn

theorem FeedMoved.total (h : FeedMoved new p row row' T T') (a : Uuid) :
    (T'.total fun row => if row.accountId = a then counted row else 0) =
      (T.total fun row => if row.accountId = a then counted row else 0) + newCounted new a -
        (if row.accountId = a then counted row else 0) +
        if row'.accountId = a then counted row' else 0 := by
  obtain ⟨T₁, hnew, hrow⟩ := h
  rw [hrow.total]
  cases new with
  | none =>
    obtain rfl : T₁ = T := hnew
    simp only [newCounted]
    omega
  | some n =>
    obtain ⟨hfree, rfl⟩ : Table.Created n.1 n.2 T T₁ := hnew
    rw [Table.total_insert_new hfree, newCounted]
    omega

end Feed

section Moves

variable {used used' : List Uuid} {base : Uuid → ℤ} {db db' : Db} {id : Uuid} {t t' : Transfer}
  {p : Uuid} {row row' : Transaction} {new : Option (Uuid × Transaction)}

/-- There is no row yet with an id that was not drawn. -/
theorem FeedState.lookup_unused (h : FeedState used base db) {x : Uuid} (hx : x ∉ used) :
    db.transactions.lookup x = none := by
  by_contra hne
  obtain ⟨r, hr⟩ := Option.ne_none_iff_exists'.1 hne
  exact hx (h.used x r hr)

/-- **One transfer moves on**: its row in the table of transfers and its row of the feed are
replaced, the feed may get a new row, and the balances move with what counts. -/
theorem FeedState.move (h : FeedState used base db) (hentered : Entered db.transactions t p row)
    (hrow : Table.Replaced id t t' db.transfers db'.transfers) (hterms : t'.terms = t.terms)
    (hfeed : FeedMoved new p row row' db.transactions db'.transactions)
    (hnew : ∀ n ∈ new, n.1 ∉ used ∧ n.1 ∈ used') (hused : ∀ x ∈ used, x ∈ used')
    (haccount : row'.accountId = row.accountId) (hamount : row'.amountCents = row.amountCents)
    (hreversed : row'.status = .reversed ↔ t'.status = .reversed)
    (hdeclined : row'.status ≠ .declined)
    (hunmade : ∀ s, t'.kind = .wireOut → t'.settledTransactionId = some s →
      s ∈ used' ∧ db'.transactions.lookup s = none)
    (hrejected : t'.reviewDecision = some .rejected → t'.status = .reversed)
    (hbalance : ∀ a, db'.balance a = db.balance a + newCounted new a +
      if t.fromAccountId = a then
        counted row' - counted row - (reversalRefund t' - reversalRefund t)
      else 0) :
    FeedState used' base db' := by
  have hfrom := from_of_terms hterms
  have hpending := pendingTransaction_of_terms hterms
  refine ⟨fun a => ?_, fun x tx hx => ?_, fun x y tx ty hx hy hxy => ?_,
    fun x tx s hx hkind hs => ?_, fun x tx hx hdecision => ?_, fun x r hr => ?_⟩
  · have hsum := hfeed.total a
    have hrefunds := hrow.total fun t => if t.fromAccountId = a then reversalRefund t else 0
    have hbase := h.balance a
    rw [hbalance a, Db.feedSum, hsum, Db.reversalRefunds, hrefunds, haccount, hentered.account,
      hfrom, hbase, Db.feedSum, Db.reversalRefunds]
    split <;> omega
  · rw [hrow.lookup] at hx
    split at hx
    · obtain rfl := Option.some.inj hx
      refine ⟨p, row', hpending.trans hentered.pending, hfeed.lookup_self, ?_, ?_, hreversed,
        hdeclined⟩
      · rw [haccount, hentered.account, hfrom]
      · rw [hamount, hentered.amount, amount_of_terms hterms, fee_of_terms hterms]
    · rename_i hne
      obtain ⟨q, r, hq⟩ := h.entered x tx hx
      have hqp : q ≠ p := by
        rintro rfl
        exact hne (h.apart x id tx t hx hrow.1 (hq.pending.trans hentered.pending.symm))
      exact ⟨q, r, { hq with lookup := hfeed.lookup_old hqp hq.lookup }⟩
  · obtain ⟨tx₀, hx₀, hpx⟩ := hrow.lookup_keeps _ hpending hx
    obtain ⟨ty₀, hy₀, hpy⟩ := hrow.lookup_keeps _ hpending hy
    exact h.apart x y tx₀ ty₀ hx₀ hy₀ (by rw [← hpx, hxy, hpy])
  · rw [hrow.lookup] at hx
    split at hx
    · obtain rfl := Option.some.inj hx
      exact hunmade s hkind hs
    · obtain ⟨hmem, hnone⟩ := h.unmade x tx s hx hkind hs
      refine ⟨hused s hmem, hfeed.lookup_none hentered.lookup hnone ?_⟩
      rintro n hn rfl
      exact (hnew n hn).1 hmem
  · rw [hrow.lookup] at hx
    split at hx
    · obtain rfl := Option.some.inj hx
      exact hrejected hdecision
    · exact h.rejected x tx hx hdecision
  · rcases hfeed.origin hr with rfl | hr | ⟨n, hn, rfl⟩
    · exact hused _ (h.used _ row hentered.lookup)
    · exact hused x (h.used x r hr)
    · exact (hnew n hn).2

theorem FeedState.mono (h : FeedState used base db) (hused : ∀ x ∈ used, x ∈ used') :
    FeedState used' base db :=
  { h with
    unmade := fun x tx s hx hkind hs =>
      ⟨hused s (h.unmade x tx s hx hkind hs).1, (h.unmade x tx s hx hkind hs).2⟩
    used := fun x r hr => hused x (h.used x r hr) }

theorem counted_of_open {row : Transaction} (hr : row.status ≠ .reversed)
    (hd : row.status ≠ .declined) : counted row = row.amountCents := by
  unfold counted
  rw [if_pos]
  cases hs : row.status with
  | pending => exact .inl rfl
  | posted => exact .inr rfl
  | declined => exact absurd hs hd
  | reversed => exact absurd hs hr

theorem reversalRefund_of_open {t : Transfer} (h : t.status ≠ .reversed) :
    reversalRefund t = 0 := by
  unfold reversalRefund
  rw [if_neg]
  rintro ⟨-, hs, -⟩
  exact h hs

/-- The pending row of a transfer that is not reversed counts in full. -/
theorem Entered.counted (h : Entered db.transactions t p row) (hs : t.status ≠ .reversed) :
    counted row = row.amountCents :=
  counted_of_open (fun hr => hs (h.reversed.1 hr)) h.declined

/-! ## Stamps -/

/-- Columns of a transfer that is not reversed are set, and it stays so. -/
theorem FeedState.restamp {f : Transfer → Transfer} (h : FeedState used base db)
    (ht : db.transfers.lookup id = some t) (hstamp : Restamped id f db db')
    (hs : t.status ≠ .reversed) (hterms : (f t).terms = t.terms)
    (hs' : (f t).status ≠ .reversed)
    (hdecision : (f t).reviewDecision = some .rejected → t.reviewDecision = some .rejected)
    (hsettled : ∀ s, (f t).settledTransactionId = some s → t.settledTransactionId = some s) :
    FeedState used base db' := by
  obtain ⟨p, row, hentered⟩ := h.entered id t ht
  obtain ⟨T, rfl, hT⟩ := hstamp
  have hfeed : FeedMoved none p row row db.transactions db.transactions :=
    ⟨_, rfl, .refl hentered.lookup⟩
  refine h.move hentered (hT.replaced ht) hterms hfeed (by simp) (fun _ hx => hx) rfl rfl ?_
    hentered.declined (fun s hkind hset => ?_) (fun hrej => ?_) fun a => ?_
  · exact ⟨fun hr => absurd (hentered.reversed.1 hr) hs, fun hr => absurd hr hs'⟩
  · rw [kind_of_terms hterms] at hkind
    exact h.unmade id t s ht hkind (hsettled s hset)
  · exact absurd (h.rejected id t ht (hdecision hrej)) hs
  · rw [reversalRefund_of_open hs, reversalRefund_of_open hs']
    simp [newCounted, Db.balance]

/-! ## Settlements -/

theorem credited?_balance {x : Option Uuid} {d : ℤ} (h : Credited? x d db db') (a : Uuid) :
    db'.balance a = db.balance a + if x = some a then d else 0 := by
  cases x with
  | none => simp [balance_of_accounts_eq h a]
  | some b =>
    rw [Credited.balance h a]
    by_cases hab : a = b
    · simp [hab]
    · have hba : ¬ b = a := fun heq => hab heq.symm
      simp [hab, hba]

theorem creditFed_added {pc : ProcessCall} {T T' : Table Uuid Transaction}
    (h : CreditFed pc t T T') : ∃ new, Added new T T' ∧ (∀ n ∈ new, n.1 = creditTxId pc t) ∧
      (creditedAccount t = none → new = none) ∧
      ∀ a, newCounted new a = if creditedAccount t = some a then t.amountCents else 0 := by
  unfold CreditFed at h
  cases hc : creditedAccount t with
  | none =>
    rw [hc] at h
    exact ⟨none, h, by simp, fun _ => rfl, fun a => by simp [newCounted]⟩
  | some b =>
    simp only [hc] at h
    obtain ⟨r, hacct, hamount, hstatus, hcreated⟩ := h
    refine ⟨some (creditTxId pc t, r), hcreated, ?_, fun hnone => (by cases hnone), fun a => ?_⟩
    · rintro n hn
      cases hn
      rfl
    · simp [newCounted, hacct, counted, hstatus, hamount]

theorem creditedAccount_wire (hkind : t.kind = .wireOut) : creditedAccount t = none := by
  simp [creditedAccount, destination, isInflow, hkind]

/-- A settlement of a pending transfer. -/
theorem FeedState.settle {pc : ProcessCall} (h : FeedState used base db)
    (ht : db.transfers.lookup pc.transferId = some t) (hs : t.status = .pending)
    (hsettled : Settled pc t db db') (hfresh : pc.settledTxId ∉ used ∧ pc.inflowTxId ∉ used)
    (hused : ∀ x ∈ used, x ∈ used') (hdraws : pc.settledTxId ∈ used' ∧ pc.inflowTxId ∈ used') :
    FeedState used' base db' := by
  obtain ⟨p, row, hentered⟩ := h.entered _ t ht
  obtain ⟨T, hcredit, hupdate⟩ := hsettled.feed
  obtain ⟨new, hadded, hid, hwire, hcounted⟩ := creditFed_added hcredit
  rw [hentered.pending] at hupdate
  have hrow : Table.Replaced p row _ T db'.transactions :=
    Table.Updated.replaced hupdate (hadded.lookup_old hentered.lookup)
  have hfeed : FeedMoved new p row _ db.transactions db'.transactions := ⟨T, hadded, hrow⟩
  have hopen : t.status ≠ .reversed := by simp [hs]
  have hcreditTx : creditTxId pc t ∉ used ∧ creditTxId pc t ∈ used' := by
    unfold creditTxId
    split
    · exact ⟨hfresh.1, hdraws.1⟩
    · exact ⟨hfresh.2, hdraws.2⟩
  refine h.move hentered (hsettled.transfers.replaced ht) rfl hfeed (fun n hn => ?_) hused rfl rfl
    (by simp [stampSettled]) (by simp) (fun s hkind hset => ?_) (fun hrej => ?_) fun a => ?_
  · rw [hid n hn]
    exact hcreditTx
  · -- a wire has no row for its settlement
    obtain rfl : pc.settledTxId = s := Option.some.inj hset
    refine ⟨hdraws.1, hfeed.lookup_none hentered.lookup (h.lookup_unused hfresh.1) ?_⟩
    rw [hwire (creditedAccount_wire hkind)]
    simp
  · exact absurd (h.rejected _ t ht hrej) hopen
  · have hposted : counted { row with status := .posted, postedAt := some pc.now } =
        counted row := by
      rw [hentered.counted hopen]
      exact counted_of_open (by simp) (by simp)
    rw [credited?_balance hsettled.balance a, hcounted, hposted, reversalRefund_of_open hopen,
      reversalRefund_of_open (by simp [stampSettled])]
    simp

/-! ## Refunds -/

theorem credited_balance {x : Uuid} {d : ℤ} (h : Credited x d db db') (a : Uuid) :
    db'.balance a = db.balance a + if x = a then d else 0 := by
  rw [h.balance a]
  simp only [eq_comm]

/-- A rejection of a transfer that is not reversed. -/
theorem FeedState.reject {dc : DecideCall} (h : FeedState used base db)
    (ht : db.transfers.lookup dc.transferId = some t) (hopen : t.status ≠ .reversed)
    (hrej : Rejected dc t db db') : FeedState used base db' := by
  obtain ⟨p, row, hentered⟩ := h.entered _ t ht
  have hupdate := hrej.feed
  rw [hentered.pending] at hupdate
  have hrow : Table.Replaced p row _ db.transactions db'.transactions :=
    Table.Updated.replaced hupdate hentered.lookup
  have hfeed : FeedMoved none p row _ db.transactions db'.transactions := ⟨_, rfl, hrow⟩
  refine h.move hentered (hrej.transfers.replaced ht) rfl hfeed (by simp) (fun _ hx => hx) rfl rfl
    (by simp [stampRejected, markReversed]) (by simp [markReversed]) (fun s hkind hset => ?_)
    (fun _ => rfl) fun a => ?_
  · obtain ⟨hmem, hnone⟩ := h.unmade _ t s ht hkind hset
    exact ⟨hmem, hfeed.lookup_none hentered.lookup hnone (by simp)⟩
  · have hrefund : reversalRefund (stampRejected dc.actorUserId
        (dc.reason.getD "Rejected by admin") dc.now t) = 0 := by
      simp [reversalRefund, stampRejected]
    have hmarked : counted (markReversed dc.now row) = 0 := by simp [counted, markReversed]
    rw [credited_balance hrej.refunded.balance a, hmarked, hentered.counted hopen,
      hentered.amount, hrefund, reversalRefund_of_open hopen]
    simp [newCounted]

/-- A reversal of a wire that is not reversed. -/
theorem FeedState.reverse {rc : ReverseCall} (h : FeedState used base db)
    (ht : db.transfers.lookup rc.transferId = some t) (hkind : t.kind = .wireOut)
    (hopen : t.status ≠ .reversed) (hrev : Reversed rc t db db') (hfresh : rc.reversalTxId ∉ used)
    (hused : ∀ x ∈ used, x ∈ used') (hdraws : rc.reversalTxId ∈ used') :
    FeedState used' base db' := by
  obtain ⟨p, row, hentered⟩ := h.entered _ t ht
  obtain ⟨T, T', hcreated, hpending, hsettled⟩ := hrev.feed
  rw [hentered.pending] at hpending
  have hrow : Table.Replaced p row (markReversed rc.now row) T T' :=
    Table.UpdatedMany.replaced hpending (hcreated.lookup_old hentered.lookup)
  -- the row that the settlement of a wire names was never made
  have hunmade : ∀ s, t.settledTransactionId = some s → T'.lookup s = none := by
    intro s hs
    obtain ⟨hmem, hnone⟩ := h.unmade _ t s ht hkind hs
    have hsp : s ≠ p := by
      rintro rfl
      rw [hentered.lookup] at hnone
      cases hnone
    have hsr : s ≠ rc.reversalTxId := by
      rintro rfl
      exact hfresh hmem
    rw [hrow.lookup, if_neg hsp, hcreated.lookup, if_neg hsr]
    exact hnone
  have hsame : db'.transactions = T' := by
    cases hs : t.settledTransactionId with
    | none =>
      rw [hs] at hsettled
      exact hsettled
    | some s =>
      rw [hs] at hsettled
      rcases hsettled with ⟨r, hr, -⟩ | ⟨-, hsame⟩
      · rw [hunmade s hs] at hr
        cases hr
      · exact hsame
  have hfeed : FeedMoved (some (rc.reversalTxId, reversalRow rc t)) p row
      (markReversed rc.now row) db.transactions db'.transactions := by
    rw [hsame]
    exact ⟨T, hcreated, hrow⟩
  refine h.move hentered (hrev.transfers.replaced ht) rfl hfeed (fun n hn => ?_) hused rfl rfl
    (by simp [stampReversed, markReversed]) (by simp [markReversed]) (fun s _ hset => ?_)
    (fun _ => rfl) fun a => ?_
  · cases hn
    exact ⟨hfresh, hdraws⟩
  · rw [hsame]
    exact ⟨hused s (h.unmade _ t s ht hkind hset).1, hunmade s hset⟩
  · have hdecision : t.reviewDecision ≠ some .rejected :=
      fun hd => hopen (h.rejected _ t ht hd)
    have hrefund : reversalRefund (stampReversed rc t t) = t.amountCents + t.feeCents := by
      simp [reversalRefund, stampReversed, hkind, hdecision]
    have hmarked : counted (markReversed rc.now row) = 0 := by simp [counted, markReversed]
    have hnew : newCounted (some (rc.reversalTxId, reversalRow rc t)) a =
        if t.fromAccountId = a then t.amountCents + t.feeCents else 0 := by
      simp [newCounted, reversalRow, counted]
    rw [credited_balance hrev.refunded.balance a, hnew, hmarked, hentered.counted hopen,
      hentered.amount, hrefund, reversalRefund_of_open hopen]
    split <;> omega

/-! ## New transfers -/

/-- A transfer is initiated. -/
theorem FeedState.initiate {ic : InitiateCall} (h : FeedState used base db)
    (hpending : t.pendingTransactionId = some ic.pendingTxId) (hstatus : t.status = .pending)
    (hsettled : t.settledTransactionId = none) (hdecision : t.reviewDecision = none)
    (hinit : Initiated ic t db db') (hfresh : ic.pendingTxId ∉ used)
    (hused : ∀ x ∈ used, x ∈ used') (hdraws : ic.pendingTxId ∈ used') :
    FeedState used' base db' := by
  obtain ⟨row, haccount, hrow, hamount, hcreated⟩ := hinit.feed
  have hopen : t.status ≠ .reversed := by simp [hstatus]
  -- no transfer before has the new row
  have hold : ∀ x tx, db.transfers.lookup x = some tx →
      tx.pendingTransactionId ≠ some ic.pendingTxId := by
    intro x tx hx heq
    obtain ⟨q, r, hq⟩ := h.entered x tx hx
    obtain rfl := Option.some.inj (hq.pending.symm.trans heq)
    exact hfresh (h.used _ r hq.lookup)
  refine ⟨fun a => ?_, fun x tx hx => ?_, fun x y tx ty hx hy hxy => ?_,
    fun x tx s hx hkind hs => ?_, fun x tx hx hrej => ?_, fun x r hr => ?_⟩
  · have hrefund := Table.total_insert_new hinit.transfers.1 t
      fun t => if t.fromAccountId = a then reversalRefund t else 0
    have hsum := Table.total_insert_new hcreated.1 row
      fun row => if row.accountId = a then counted row else 0
    have hcounted : counted row = row.amountCents :=
      counted_of_open (by simp [hrow]) (by simp [hrow])
    have hbase := h.balance a
    rw [credited_balance hinit.balance a, Db.feedSum, hcreated.2, hsum, Db.reversalRefunds,
      hinit.transfers.2, hrefund, reversalRefund_of_open hopen, hcounted, haccount, hamount, hbase,
      Db.feedSum, Db.reversalRefunds]
    split <;> omega
  · rw [hinit.transfers.lookup] at hx
    split at hx
    · obtain rfl := Option.some.inj hx
      refine ⟨ic.pendingTxId, row, hpending, ?_, haccount, hamount, ?_, by simp [hrow]⟩
      · rw [hcreated.lookup, if_pos rfl]
      · simp [hrow, hstatus]
    · obtain ⟨q, r, hq⟩ := h.entered x tx hx
      exact ⟨q, r, { hq with lookup := hcreated.lookup_old hq.lookup }⟩
  · rw [hinit.transfers.lookup] at hx hy
    split at hx
    · rename_i hxid
      split at hy
      · rename_i hyid
        rw [hxid, hyid]
      · obtain rfl := Option.some.inj hx
        exact absurd (hxy.symm.trans hpending) (hold y ty hy)
    · split at hy
      · obtain rfl := Option.some.inj hy
        exact absurd (hxy.trans hpending) (hold x tx hx)
      · exact h.apart x y tx ty hx hy hxy
  · rw [hinit.transfers.lookup] at hx
    split at hx
    · obtain rfl := Option.some.inj hx
      rw [hsettled] at hs
      cases hs
    · obtain ⟨hmem, hnone⟩ := h.unmade x tx s hx hkind hs
      refine ⟨hused s hmem, ?_⟩
      rw [hcreated.lookup, if_neg]
      · exact hnone
      · rintro rfl
        exact hfresh hmem
  · rw [hinit.transfers.lookup] at hx
    split at hx
    · obtain rfl := Option.some.inj hx
      rw [hdecision] at hrej
      cases hrej
    · exact h.rejected x tx hx hrej
  · rw [hcreated.lookup] at hr
    split at hr
    · rename_i hxp
      rw [hxp]
      exact hdraws
    · exact hused x (h.used x r hr)

/-! ## Steps of calls -/

theorem FeedState.settleStep {pc : ProcessCall} (h : FeedState used base db)
    (hstep : SettleStep pc db db') (hfresh : pc.settledTxId ∉ used ∧ pc.inflowTxId ∉ used)
    (hused : ∀ x ∈ used, x ∈ used') (hdraws : pc.settledTxId ∈ used' ∧ pc.inflowTxId ∈ used') :
    FeedState used' base db' := by
  rcases hstep with rfl | ⟨t, ht, hs, hsettled⟩
  · exact h.mono hused
  · exact h.settle ht (pending_of_settleable hs) hsettled hfresh hused hdraws

/-- An approval of a transfer that is not reversed. -/
theorem FeedState.approveStep {fc : ForceSettleCall} {actor : Uuid} {reason : Option String}
    {now : Instant} (h : FeedState used base db)
    (hstep : ApproveStep fc (stampApproved actor reason now) db db')
    (hopen : (db.transfers.lookup fc.transferId).map Transfer.status ≠ some .reversed)
    (hfresh : fc.worker.settledTxId ∉ used ∧ fc.worker.inflowTxId ∉ used)
    (hused : ∀ x ∈ used, x ∈ used')
    (hdraws : fc.worker.settledTxId ∈ used' ∧ fc.worker.inflowTxId ∈ used') :
    FeedState used' base db' := by
  rcases hstep with rfl | ⟨t, db₁, ht, -, -, hstamp, db₂, hreopen, hsettle⟩
  · exact h.mono hused
  · have hs : t.status ≠ .reversed := fun hrev => hopen (by simp [ht, hrev])
    have h₁ : FeedState used base db₁ :=
      h.restamp ht hstamp hs rfl hs (fun hrej => (by cases hrej)) fun _ hset => hset
    have h₂ : FeedState used base db₂ := by
      rcases hreopen with ⟨-, rfl⟩ | ⟨t₁, ht₁, -, hreset⟩
      · exact h₁
      · have heq : t₁ = stampApproved actor reason now t := by
          rw [hstamp.lookup, if_pos rfl, ht] at ht₁
          exact (Option.some.inj ht₁).symm
        have hs₁ : t₁.status ≠ .reversed := by
          rw [heq]
          exact hs
        exact h₁.restamp ht₁ hreset hs₁ rfl (by simp [resetToPending]) (fun hrej => hrej)
          fun _ hset => (by cases hset)
    exact h₂.settleStep hsettle hfresh hused hdraws

end Moves

/-- **Every call keeps the feed in step with the balances**, given new ids and no review of what
is reversed already. -/
theorem FeedState.step {used : List Uuid} {base : Uuid → ℤ} {env : Env} {db db' : Db} {c : Call}
    (h : FeedState used base db) (hstep : Atomic env db db' c) (hc : c.onFeed = true)
    (hfresh : ∀ x ∈ c.draws, x ∉ used) (hreview : reviewsReversed db c = false) :
    FeedState (c.draws ++ used) base db' := by
  have hused : ∀ x ∈ used, x ∈ c.draws ++ used := fun x hx => List.mem_append_right _ hx
  have hdraws : ∀ x ∈ c.draws, x ∈ c.draws ++ used := fun x hx => List.mem_append_left _ hx
  cases c with
  | initiate ic =>
    rcases hstep with rfl | ⟨t, hadmitted, -, hinit⟩
    · exact h.mono hused
    · obtain ⟨s, fx, toAccount, -, -, rfl⟩ := hadmitted.row
      exact h.initiate rfl rfl rfl rfl hinit (hfresh _ (by simp [Call.draws])) hused
        (hdraws _ (by simp [Call.draws]))
  | process pc =>
    exact h.settleStep hstep ⟨hfresh _ (by simp [Call.draws]), hfresh _ (by simp [Call.draws])⟩
      hused ⟨hdraws _ (by simp [Call.draws]), hdraws _ (by simp [Call.draws])⟩
  | decide dc =>
    have hopen : (db.transfers.lookup dc.transferId).map Transfer.status ≠ some .reversed := by
      simpa [reviewsReversed] using hreview
    simp only [Atomic] at hstep
    split at hstep
    · exact h.approveStep hstep hopen
        ⟨hfresh _ (by simp [Call.draws]), hfresh _ (by simp [Call.draws])⟩ hused
        ⟨hdraws _ (by simp [Call.draws]), hdraws _ (by simp [Call.draws])⟩
    · rcases hstep with rfl | ⟨t, ht, -, -, hrej⟩
      · exact h.mono hused
      · exact (h.reject ht (fun hrev => hopen (by simp [ht, hrev])) hrej).mono hused
  | approve ac =>
    have hopen : (db.transfers.lookup ac.transferId).map Transfer.status ≠ some .reversed := by
      simpa [reviewsReversed] using hreview
    exact h.approveStep hstep hopen
      ⟨hfresh _ (by simp [Call.draws]), hfresh _ (by simp [Call.draws])⟩ hused
      ⟨hdraws _ (by simp [Call.draws]), hdraws _ (by simp [Call.draws])⟩
  | reverse rc =>
    rcases hstep with rfl | ⟨t, ht, hkind, hopen, hrev⟩
    · exact h.mono hused
    · exact h.reverse ht hkind hopen hrev (hfresh _ (by simp [Call.draws])) hused
        (hdraws _ (by simp [Call.draws]))
  | _ => cases hc

theorem feedState_start {db : Db} (htransactions : db.transactions = ∅)
    (htransfers : db.transfers = ∅) : FeedState [] db.balance db := by
  have hnone : ∀ x t, db.transfers.lookup x ≠ some t := by
    intro x t hx
    rw [htransfers] at hx
    cases hx
  refine ⟨fun a => ?_, fun x t hx => absurd hx (hnone x t), fun x y t _ hx => absurd hx (hnone x t),
    fun x t s hx => absurd hx (hnone x t), fun x t hx => absurd hx (hnone x t), fun x r hr => ?_⟩
  · simp [Db.feedSum, Db.reversalRefunds, htransactions, htransfers, Table.total]
  · rw [htransactions] at hr
    cases hr

/-- **The feed reconciles with the balance.** In every sequence of initiations, settlements and
reviews from an empty feed, in which the ids drawn are distinct and no review acts on a transfer
that is reversed already, the balance of every account is its balance at the start plus its
pending and posted transactions, minus what reversals of wires returned: a reversal takes the row
of the wire out of the count and adds a row for the refund as well. -/
theorem feed_reconciles {env : Env} {w₀ w : World} {tr : List (Step World Call)}
    (htransactions : w₀.db.transactions = ∅) (htransfers : w₀.db.transfers = ∅)
    (hseq : Sequence env (fun c => c.onFeed = true) w₀ tr w) (hdrawn : (drawn tr).Nodup)
    (hreviews : ∀ x ∈ tr, reviewsReversed x.pre.db x.call = false) (a : Uuid) :
    w.db.balance a = w₀.db.balance a + w.db.feedSum a - w.db.reversalRefunds a := by
  have hstate : FeedState (drawn tr) w₀.db.balance w.db := by
    refine Sequence.induct (I := fun tr w => (drawn tr).Nodup →
      (∀ x ∈ tr, reviewsReversed x.pre.db x.call = false) →
      FeedState (drawn tr) w₀.db.balance w.db) ?_ ?_ hseq hdrawn hreviews
    · intro _ _
      exact feedState_start htransactions htransfers
    · intro tr w c w' ih hc hstep hdrawn hreviews
      have hsplit : (c.draws ++ drawn tr).Nodup := hdrawn
      have hstate := ih (List.nodup_append.1 hsplit).2.1
        fun x hx => hreviews x (List.mem_cons_of_mem _ hx)
      refine hstate.step hstep hc (fun x hx hmem => ?_) (hreviews _ List.mem_cons_self)
      exact (List.nodup_append.1 hsplit).2.2 x hx x hmem rfl
  exact hstate.balance a

/-- A payment of 20.00 that settles, a wire of 30.00 that is rejected and one of 40.00 that is
approved and then reversed. -/
def sampleFeed : List Call :=
  [.initiate (samplePay .p2p 20 100 2000 false), .initiate (samplePay .wireOut 20 110 3000 false),
    .initiate (samplePay .wireOut 20 120 4000 false), .process (sampleSettle 100 200),
    .decide (sampleDecide .rejected 110 300), .approve (sampleApprove 120 400),
    .reverse (sampleReverse 120 500)]

theorem feed_reconciles_sample :
    (oneAtATime sampleEnv sampleWorld sampleFeed).2.db.balance 10 = 498000 ∧
      (oneAtATime sampleEnv sampleWorld sampleFeed).2.db.balance 10 = 500000 +
        (oneAtATime sampleEnv sampleWorld sampleFeed).2.db.feedSum 10 -
          (oneAtATime sampleEnv sampleWorld sampleFeed).2.db.reversalRefunds 10 :=
  ⟨by decide +kernel, feed_reconciles rfl rfl (oneAtATime_sequence sampleFeed (by decide))
    (by decide +kernel) (by decide +kernel) 10⟩

/-- A wire of 20.00 is reversed: Ann has her money back once, and the feed shows it twice. -/
theorem reversal_shown_twice :
    ¬ ∀ (env : Env) (w₀ : World), w₀.db.transactions = ∅ → w₀.db.transfers = ∅ →
        ∀ (tr : List (Step World Call)) (w : World),
        Sequence env (fun c => c.onFeed = true) w₀ tr w → (drawn tr).Nodup →
        (∀ x ∈ tr, reviewsReversed x.pre.db x.call = false) →
        ∀ a, w.db.balance a = w₀.db.balance a + w.db.feedSum a := by
  intro h
  have hcalls : ∀ c ∈ [Call.initiate (samplePay .wireOut 20 100 2000 false),
      .reverse (sampleReverse 100 200)], c.onFeed = true := by
    simp [Call.onFeed]
  have hlast := h sampleEnv sampleWorld rfl rfl _ _ (oneAtATime_sequence _ hcalls)
    (by decide +kernel) (by decide +kernel) 10
  revert hlast
  decide +kernel

end BankDemo
