import BankDemo.Properties.SettleOnce

/-!
# Failed transfers

When the attempts of the queue at a transfer are exhausted, `onFailed` marks it as declined. That is
all it does: what `initiate` took from the sender is not returned, and the sender's feed goes on
showing the transaction as pending.

* `failed_returned_iff`: when no attempt has settled a transfer, its sender has the money back
  exactly if a reviewer or an administrator has refunded it before, by a rejection or a reversal.
-/

namespace BankDemo

open Ledger Transfers Admin

/-- What the steps on transfer `id` returned to account `a`. -/
def returnedTo (a id : Uuid) (tr : List (Step World Call)) : ℤ :=
  (tr.map fun x => if x.call.subject = some id then
    x.post.db.balance a - x.pre.db.balance a else 0).sum

/-- The sender has amount and fee back, and the transaction of the debit is not shown as pending
any more. -/
structure MoneyReturned (id : Uuid) (t : Transfer) (tr : List (Step World Call)) (w : World) :
    Prop where
  balance : t.amountCents + t.feeCents ≤ returnedTo t.fromAccountId id tr
  feed : ∀ p row, t.pendingTransactionId = some p → w.db.transactions.lookup p = some row →
    row.status ≠ .pending

/-- The attempts at transfer `id` are exhausted: none has settled it, and it is declined. -/
structure AttemptsExhausted (id : Uuid) (t : Transfer) (tr : List (Step World Call)) (w : World) :
    Prop where
  row : w.db.transfers.lookup id = some t
  declined : t.status = .declined
  threw : ∀ x ∈ tr, ¬ WritesSettleEntry id x

/-- The step refunds transfer `id`, by a rejection or a reversal. -/
def WritesRefund (id : Uuid) (x : Step World Call) : Prop :=
  x.post.db.entriesOf (.reject id) ≠ x.pre.db.entriesOf (.reject id) ∨
    x.post.db.entriesOf (.adminReverse id) ≠ x.pre.db.entriesOf (.adminReverse id)

instance (id : Uuid) (x : Step World Call) : Decidable (WritesRefund id x) :=
  inferInstanceAs (Decidable (_ ∨ _))

/-- A call on transfers. That a transfer has failed is left to the queue to say. -/
def Call.onTransfer : Call → Bool
  | .markFailed .. => false
  | c => !c.isEdit

theorem Call.isEdit_of_onTransfer {c : Call} (h : c.onTransfer = true) : c.isEdit = false := by
  cases c with
  | markFailed => cases h
  | _ => simpa [Call.onTransfer] using h

/-! ## The feed -/

/-- Transactions stay, and none becomes pending. -/
def FeedKept (T T' : Table Uuid Transaction) : Prop :=
  ∀ p row, T.lookup p = some row →
    ∃ row', T'.lookup p = some row' ∧ (row'.status = .pending → row.status = .pending)

theorem FeedKept.refl (T : Table Uuid Transaction) : FeedKept T T :=
  fun _ row hrow => ⟨row, hrow, id⟩

theorem FeedKept.trans {T T₁ T₂ : Table Uuid Transaction} (h : FeedKept T T₁)
    (h' : FeedKept T₁ T₂) : FeedKept T T₂ := by
  intro p row hrow
  obtain ⟨row₁, hrow₁, hstatus₁⟩ := h p row hrow
  obtain ⟨row₂, hrow₂, hstatus₂⟩ := h' p row₁ hrow₁
  exact ⟨row₂, hrow₂, fun hpending => hstatus₁ (hstatus₂ hpending)⟩

theorem feedKept_created {p : Uuid} {row : Transaction} {T T' : Table Uuid Transaction}
    (h : Table.Created p row T T') : FeedKept T T' :=
  fun _ row' hrow' => ⟨row', h.lookup_old hrow', id⟩

theorem feedKept_updated {p : Uuid} {f : Transaction → Transaction}
    {T T' : Table Uuid Transaction} (h : Table.UpdatedMany p f T T')
    (hf : ∀ row, (f row).status ≠ .pending) : FeedKept T T' := by
  intro p' row hrow
  rw [h.lookup]
  split
  · exact ⟨f row, by rw [hrow, Option.map_some], fun hpending => absurd hpending (hf row)⟩
  · exact ⟨row, hrow, id⟩

theorem feedKept_updated? {p : Option Uuid} {f : Transaction → Transaction}
    {T T' : Table Uuid Transaction} (h : Table.Updated? p f T T')
    (hf : ∀ row, (f row).status ≠ .pending) : FeedKept T T' := by
  cases p with
  | none =>
    obtain rfl : T' = T := h
    exact .refl T'
  | some p => exact feedKept_updated (.inl h) hf

theorem feedKept_flipped {p : Option Uuid} {f : Transaction → Transaction}
    {T T' : Table Uuid Transaction} (h : Flipped p f T T')
    (hf : ∀ row, (f row).status ≠ .pending) : FeedKept T T' := by
  cases p with
  | none =>
    obtain rfl : T' = T := h
    exact .refl T'
  | some p => exact feedKept_updated h hf

theorem feedKept_settled {pc : ProcessCall} {t : Transfer} {db db' : Db}
    (h : Settled pc t db db') : FeedKept db.transactions db'.transactions := by
  obtain ⟨T, hfed, hupdated⟩ := h.feed
  refine FeedKept.trans ?_ (feedKept_updated? hupdated fun _ => by simp)
  unfold CreditFed at hfed
  split at hfed
  · obtain ⟨row, -, -, -, hcreated⟩ := hfed
    exact feedKept_created hcreated
  · rw [hfed]
    exact .refl _

theorem feedKept_restamped {id : Uuid} {f : Transfer → Transfer} {db db' : Db}
    (h : Restamped id f db db') : FeedKept db.transactions db'.transactions := by
  obtain ⟨T, rfl, -⟩ := h
  exact .refl _

theorem feedKept_reversed {rc : ReverseCall} {t : Transfer} {db db' : Db}
    (h : Reversed rc t db db') : FeedKept db.transactions db'.transactions := by
  obtain ⟨T, T', hcreated, hpending, hsettled⟩ := h.feed
  exact ((feedKept_created hcreated).trans
    (feedKept_flipped hpending fun _ => by simp [markReversed])).trans
      (feedKept_flipped hsettled fun _ => by simp)

theorem Change.feedKept {env : Env} {h : List World} {db db' : Db} {c : Call}
    (hchange : Change env h db db' c) (hc : c.isEdit = false) :
    FeedKept db.transactions db'.transactions := by
  cases hchange with
  | quiet hdb =>
    rw [hdb]
    exact .refl _
  | initiated _ _ hinit =>
    obtain ⟨row, -, -, -, hcreated⟩ := hinit.feed
    exact feedKept_created hcreated
  | settled _ _ _ hsettled => exact feedKept_settled hsettled
  | reopened _ _ _ hreset => exact feedKept_restamped hreset
  | approved _ _ _ _ hstamp => exact feedKept_restamped hstamp
  | rejected _ _ _ _ hrej => exact feedKept_updated? hrej.feed fun _ => by simp [markReversed]
  | reversed _ _ _ hrev => exact feedKept_reversed hrev
  | failed _ hstamp => exact feedKept_restamped hstamp
  | adjusted hedit _ =>
    rw [hc] at hedit
    cases hedit

/-! ## Refunds -/

/-- What the refund of `t` did: the sender has amount and fee back, and the transaction of the
debit, if it is there, is reversed. -/
structure RefundMade (t : Transfer) (db db' : Db) : Prop where
  balance : Credited t.fromAccountId (t.amountCents + t.feeCents) db db'
  feed : ∀ p row, t.pendingTransactionId = some p → db.transactions.lookup p = some row →
    ∃ row', db'.transactions.lookup p = some row' ∧ row'.status ≠ .pending

theorem refundMade_rejected {dc : DecideCall} {t : Transfer} {db db' : Db}
    (h : Rejected dc t db db') : RefundMade t db db' := by
  refine ⟨h.refunded.balance, fun p row hp hrow => ?_⟩
  have hfeed := h.feed
  rw [hp] at hfeed
  refine ⟨markReversed dc.now row, ?_, by simp [markReversed]⟩
  rw [Table.Updated.lookup hfeed, if_pos rfl, hrow, Option.map_some]

theorem refundMade_reversed {rc : ReverseCall} {t : Transfer} {db db' : Db}
    (h : Reversed rc t db db') : RefundMade t db db' := by
  refine ⟨h.refunded.balance, fun p row hp hrow => ?_⟩
  obtain ⟨T, T', hcreated, hpending, hsettled⟩ := h.feed
  rw [hp] at hpending
  have hrow' : T'.lookup p = some (markReversed rc.now row) := by
    rw [Table.UpdatedMany.lookup hpending, if_pos rfl, hcreated.lookup_old hrow, Option.map_some]
  obtain ⟨row', hlookup, hstatus⟩ := feedKept_flipped hsettled (fun _ => by simp) p _ hrow'
  exact ⟨row', hlookup, fun hp => absurd (hstatus hp) (by simp [markReversed])⟩

theorem RefundMade.of_terms {t t₀ : Transfer} {db db' : Db} (h : RefundMade t₀ db db')
    (hterms : t.terms = t₀.terms) : RefundMade t db db' := by
  refine ⟨?_, ?_⟩
  · rw [from_of_terms hterms, amount_of_terms hterms, fee_of_terms hterms]
    exact h.balance
  · rw [pendingTransaction_of_terms hterms]
    exact h.feed

/-- A step that does not settle transfer `id` leaves its money where it is, or refunds it as it was
seen. -/
theorem Change.refundMade {env : Env} {h : List World} {x : Step World Call}
    (hchange : Change env h x.pre.db x.post.db x.call) (hc : x.call.isEdit = false) {id : Uuid}
    (hsettle : ¬ WritesSettleEntry id x) :
    (¬ WritesRefund id x ∧
      (x.call.subject = some id → ∀ a, x.post.db.balance a = x.pre.db.balance a)) ∨
    (WritesRefund id x ∧ x.call.subject = some id ∧
      ∃ t, Seen h id t ∧ RefundMade t x.pre.db x.post.db) := by
  obtain ⟨tid, c, pre, post⟩ := x
  simp only [WritesSettleEntry, WritesRefund, not_not, not_or] at hchange hc hsettle ⊢
  cases hchange with
  | quiet hdb =>
    rw [hdb]
    exact .inl ⟨⟨rfl, rfl⟩, fun _ _ => rfl⟩
  | initiated _ _ hinit =>
    exact .inl ⟨⟨hinit.booked.entriesOf_ne (by simp),
      hinit.booked.entriesOf_ne (by simp)⟩, fun hid => by cases hid⟩
  | @settled _ pc _ hw _ _ hsettled =>
    refine .inl ⟨⟨hsettled.booked.entriesOf_ne (by simp),
      hsettled.booked.entriesOf_ne (by simp)⟩, fun hid => ?_⟩
    rw [Call.subject_of_worker hw] at hid
    obtain rfl := Option.some.inj hid
    exact absurd hsettle hsettled.booked.entriesOf_self
  | reopened _ _ _ hreset =>
    exact .inl ⟨⟨hreset.entriesOf _, hreset.entriesOf _⟩, fun _ => hreset.balance⟩
  | approved _ _ _ _ hstamp =>
    exact .inl ⟨⟨hstamp.entriesOf _, hstamp.entriesOf _⟩, fun _ => hstamp.balance⟩
  | @rejected dc _ _ hseen _ _ hrej =>
    have hbooked := hrej.refunded.booked
    by_cases hid : dc.transferId = id
    · subst hid
      exact .inr ⟨.inl hbooked.entriesOf_self, rfl, _, hseen, refundMade_rejected hrej⟩
    · refine .inl ⟨⟨hbooked.entriesOf_ne (by simpa using hid),
        hbooked.entriesOf_ne (by simp)⟩, fun hsubject => ?_⟩
      exact absurd (Option.some.inj hsubject) hid
  | @reversed rc _ hseen _ _ hrev =>
    have hbooked := hrev.refunded.booked
    by_cases hid : rc.transferId = id
    · subst hid
      exact .inr ⟨.inr hbooked.entriesOf_self, rfl, _, hseen, refundMade_reversed hrev⟩
    · refine .inl ⟨⟨hbooked.entriesOf_ne (by simp),
        hbooked.entriesOf_ne (by simpa using hid)⟩, fun hsubject => ?_⟩
      exact absurd (Option.some.inj hsubject) hid
  | failed _ hstamp =>
    exact .inl ⟨⟨hstamp.entriesOf _, hstamp.entriesOf _⟩, fun _ => hstamp.balance⟩
  | adjusted hedit _ =>
    rw [hc] at hedit
    cases hedit

/-! ## Over a run -/

/-- Where the money of transfer `id`, whose row is `t`, is: it was never returned, or it was, and
the transaction of the debit is closed. -/
structure Whereabouts (id : Uuid) (t : Transfer) (tr : List (Step World Call)) (w : World) :
    Prop where
  total : 0 < t.amountCents + t.feeCents
  feed : ∃ p row, t.pendingTransactionId = some p ∧ w.db.transactions.lookup p = some row ∧
    (((∀ x ∈ tr, ¬ WritesRefund id x) ∧ returnedTo t.fromAccountId id tr = 0) ∨
      ((∃ x ∈ tr, WritesRefund id x) ∧
        t.amountCents + t.feeCents ≤ returnedTo t.fromAccountId id tr ∧ row.status ≠ .pending))

section Trace

variable {a id : Uuid} {tr : List (Step World Call)} {x : Step World Call} {t t' : Transfer}

theorem returnedTo_cons (a id : Uuid) (x : Step World Call) (tr : List (Step World Call)) :
    returnedTo a id (x :: tr) = (if x.call.subject = some id then
      x.post.db.balance a - x.pre.db.balance a else 0) + returnedTo a id tr := rfl

theorem returnedTo_of_same
    (hx : x.call.subject = some id → x.post.db.balance a = x.pre.db.balance a) :
    returnedTo a id (x :: tr) = returnedTo a id tr := by
  rw [returnedTo_cons]
  split
  · rename_i hid
    rw [hx hid]
    omega
  · omega

theorem no_refund_cons (h : ∀ y ∈ tr, ¬ WritesRefund id y) (hx : ¬ WritesRefund id x) :
    ∀ y ∈ x :: tr, ¬ WritesRefund id y := by
  intro y hy
  rcases List.mem_cons.1 hy with rfl | hy
  · exact hx
  · exact h y hy

/-- The step lemma. -/
theorem Whereabouts.step (h : Whereabouts id t tr x.pre) (hterms : t'.terms = t.terms)
    (hfeed : FeedKept x.pre.db.transactions x.post.db.transactions)
    (hstep : (¬ WritesRefund id x ∧
        (x.call.subject = some id → ∀ a, x.post.db.balance a = x.pre.db.balance a)) ∨
      (WritesRefund id x ∧ x.call.subject = some id ∧ RefundMade t x.pre.db x.post.db)) :
    Whereabouts id t' (x :: tr) x.post := by
  obtain ⟨htotal, p, row, hp, hrow, hwhere⟩ := h
  refine ⟨by rw [amount_of_terms hterms, fee_of_terms hterms]; exact htotal, ?_⟩
  rw [pendingTransaction_of_terms hterms, amount_of_terms hterms, fee_of_terms hterms,
    from_of_terms hterms]
  rcases hstep with ⟨hno, hsame⟩ | ⟨hyes, hid, hmade⟩
  · obtain ⟨row', hrow', hstatus⟩ := hfeed p row hrow
    refine ⟨p, row', hp, hrow', ?_⟩
    rw [returnedTo_of_same fun hid => hsame hid _]
    refine hwhere.imp (fun hw => ⟨no_refund_cons hw.1 hno, hw.2⟩) fun hw => ⟨?_, hw.2.1, ?_⟩
    · obtain ⟨y, hy, hrefund⟩ := hw.1
      exact ⟨y, List.mem_cons_of_mem _ hy, hrefund⟩
    · exact fun hpending => hw.2.2 (hstatus hpending)
  · obtain ⟨row', hrow', hstatus⟩ := hmade.feed p row hp hrow
    refine ⟨p, row', hp, hrow', .inr ⟨⟨x, List.mem_cons_self, hyes⟩, ?_, hstatus⟩⟩
    rw [returnedTo_cons, if_pos hid, hmade.balance.balance, if_pos rfl]
    rcases hwhere with ⟨-, hzero⟩ | ⟨-, hle, -⟩ <;> omega

end Trace

/-- A new transfer is of a positive total, and the transaction of its debit is in the feed. -/
theorem whereabouts_new {env : Env} (hmin : 1 ≤ env.cfg.minCents) (hfees : env.cfg.FeesNonneg)
    {h : List World} {db db' : Db} {c : Call} (hchange : Change env h db db' c) {id : Uuid}
    {t : Transfer} (hnone : db.transfers.lookup id = none)
    (ht : db'.transfers.lookup id = some t) : ∃ (ic : InitiateCall) (row : Transaction),
      t.pendingTransactionId = some ic.pendingTxId ∧
      db'.transactions.lookup ic.pendingTxId = some row ∧ 0 < t.amountCents + t.feeCents := by
  rcases hchange.rowChange.origin ht with ⟨t₀, ht₀, -⟩ | ⟨ic, rfl, rfl, hadmitted⟩
  · rw [hnone] at ht₀
    cases ht₀
  · rcases hchange.of_initiate with hdb | ⟨t', -, hinit⟩
    · rw [hdb, hnone] at ht
      cases ht
    · obtain ⟨row, -, -, -, hcreated⟩ := hinit.feed
      obtain ⟨s, fx, toAccount, -, hvalid, rfl⟩ := hadmitted.row
      refine ⟨ic, row, rfl, by rw [hcreated.lookup, if_pos rfl], ?_⟩
      have hamount := quote_min hvalid
      have hfee := hfees _ _ _ _ hvalid
      simp only [newTransfer]
      omega

/-- The run lemma. -/
theorem steps_whereabouts {env : Env} (hmin : 1 ≤ env.cfg.minCents) (hfees : env.cfg.FeesNonneg)
    {w₀ : World} {tr : List (Step World Call)} (hsteps : (system env).Steps w₀ tr)
    (hcalls : ∀ x ∈ tr, x.call.isEdit = false) {id : Uuid}
    (hnew : w₀.db.transfers.lookup id = none) (hsettle : ∀ x ∈ tr, ¬ WritesSettleEntry id x)
    {w : World} {past : List World} (hw : visited w₀ tr = w :: past) :
    (w.db.transfers.lookup id = none → (∀ x ∈ tr, ¬ WritesRefund id x) ∧
      ∀ a, returnedTo a id tr = 0) ∧
    ∀ t, w.db.transfers.lookup id = some t → Whereabouts id t tr w := by
  refine steps_induct (I := fun tr w => (w.db.transfers.lookup id = none →
      (∀ x ∈ tr, ¬ WritesRefund id x) ∧ ∀ a, returnedTo a id tr = 0) ∧
    ∀ t, w.db.transfers.lookup id = some t → Whereabouts id t tr w) hsteps ?_ ?_ w past hw
  · refine ⟨fun _ => ⟨by simp, fun _ => rfl⟩, fun t ht => ?_⟩
    rw [hnew] at ht
    cases ht
  · rintro earlier x past' hx steps hpre ⟨hnone, hsome⟩ hchange
    have hfeed := hchange.feedKept (hcalls x hx)
    have hcases := hchange.refundMade (hcalls x hx) (hsettle x hx)
    cases hrow : x.pre.db.transfers.lookup id with
    | none =>
      obtain ⟨hno, hzero⟩ := hnone hrow
      -- a transfer that is not there was never seen
      have hleft : ¬ WritesRefund id x ∧
          (x.call.subject = some id → ∀ a, x.post.db.balance a = x.pre.db.balance a) := by
        rcases hcases with hleft | ⟨-, -, t₀, hseen, -⟩
        · exact hleft
        · obtain ⟨t', ht', -⟩ := steps_lineage steps x.pre past' hpre id t₀ hseen
          rw [hrow] at ht'
          cases ht'
      have hno' := no_refund_cons hno hleft.1
      have hzero' : ∀ a, returnedTo a id (x :: earlier) = 0 := by
        intro a
        rw [returnedTo_of_same fun hid => hleft.2 hid a, hzero a]
      refine ⟨fun _ => ⟨hno', hzero'⟩, fun t ht => ?_⟩
      obtain ⟨ic, row, hpending, hcreated, hpositive⟩ := whereabouts_new hmin hfees hchange hrow ht
      exact ⟨hpositive, ic.pendingTxId, row, hpending, hcreated, .inl ⟨hno', hzero' _⟩⟩
    | some t =>
      obtain ⟨t', hrow', hterms⟩ := hchange.rowChange.keep hrow
      rw [hrow']
      refine ⟨by simp, fun t₁ ht₁ => ?_⟩
      obtain rfl := Option.some.inj ht₁
      refine (hsome t hrow).step hterms hfeed (hcases.imp_right ?_)
      rintro ⟨hrefund, hid, t₀, hseen, hmade⟩
      have hseen' : Seen (visited w₀ earlier) id t := by
        rw [hpre]
        exact ⟨x.pre, List.mem_cons_self, hrow⟩
      exact ⟨hrefund, hid, hmade.of_terms (steps_seen_eq steps hseen' hseen)⟩

/-- **A failed transfer and its money.** Under a configuration with a positive minimum and no
negative fees, in every interleaving of calls on transfers from a store without the transfer: when
the attempts at the transfer are exhausted, the sender has the money back exactly if a step before
has refunded it, by a rejection or a reversal. -/
theorem failed_returned_iff (env : Env) (hmin : 1 ≤ env.cfg.minCents)
    (hfees : env.cfg.FeesNonneg) (w₀ : World) (id : Uuid)
    (hnew : w₀.db.transfers.lookup id = none) (tr : List (Step World Call))
    (P : Pool World Error Answer Call)
    (hrun : Run (program env) (fun c => c.onTransfer = true) w₀ tr P) (t : Transfer)
    (hexhausted : AttemptsExhausted id t tr P.state) :
    MoneyReturned id t tr P.state ↔ ∃ x ∈ tr, WritesRefund id x := by
  obtain ⟨past, hpast⟩ := hrun.visited_eq
  have hcalls : ∀ x ∈ tr, x.call.isEdit = false :=
    fun x hx => Call.isEdit_of_onTransfer (hrun.step_ok hx)
  have hwhere := (steps_whereabouts hmin hfees hrun.steps hcalls hnew hexhausted.threw hpast).2 t
    hexhausted.row
  obtain ⟨htotal, p, row, hp, hrow, ⟨hno, hzero⟩ | ⟨hyes, hle, hstatus⟩⟩ := hwhere
  · constructor
    · intro hreturned
      have hbalance := hreturned.balance
      rw [hzero] at hbalance
      omega
    · rintro ⟨x, hx, hrefund⟩
      exact absurd hrefund (hno x hx)
  · refine ⟨fun _ => hyes, fun _ => ⟨hle, fun p' row' hp' hrow' => ?_⟩⟩
    obtain rfl := Option.some.inj (hp.symm.trans hp')
    obtain rfl := Option.some.inj (hrow.symm.trans hrow')
    exact hstatus

/-- A payment of 20.00 to an account that does not exist, and three attempts of the queue. -/
def sampleAttempts : List (Choice Call) :=
  oneByOne [.initiate (samplePay .p2p 77 100 2000 false), .runJob (sampleSettle 100 200),
    .runJob (sampleSettle 100 300), .runJob (sampleSettle 100 400)]

/-- The row of the payment, when the queue has given up. -/
def sampleFailed : Transfer :=
  stampFailed "Destination account vanished" 0
    (newTransfer sampleEnv (samplePay .p2p 77 100 2000 false) 2000 0 none)

theorem sampleAttempts_onTransfer {c : Call} (h : Choice.call c ∈ sampleAttempts) :
    c.onTransfer = true := by
  have hmem := mem_oneByOne h
  simp only [List.mem_cons, List.not_mem_nil, or_false] at hmem
  rcases hmem with rfl | rfl | rfl | rfl <;> rfl

theorem sampleAttempts_exhausted : AttemptsExhausted 100 sampleFailed
    (exec (program sampleEnv) sampleWorld sampleAttempts).1
    (exec (program sampleEnv) sampleWorld sampleAttempts).2.state :=
  ⟨by decide +kernel, rfl, by decide +kernel⟩

theorem failed_not_returned :
    (exec (program sampleEnv) sampleWorld sampleAttempts).2.state.db.balance 10 = 498000 ∧
      ¬ MoneyReturned 100 sampleFailed (exec (program sampleEnv) sampleWorld sampleAttempts).1
        (exec (program sampleEnv) sampleWorld sampleAttempts).2.state := by
  refine ⟨by decide +kernel, fun hreturned => ?_⟩
  have hrefund := (failed_returned_iff sampleEnv (by decide) (feesNonneg_of_feeMin (by decide))
    sampleWorld 100 rfl _ _ (exec_run sampleAttempts fun _ => sampleAttempts_onTransfer)
    sampleFailed sampleAttempts_exhausted).1 hreturned
  revert hrefund
  decide +kernel

/-- Ann's payment fails for good, and her 20.00 are gone. -/
theorem failed_loses_money :
    ¬ ∀ (env : Env), 1 ≤ env.cfg.minCents → env.cfg.FeesNonneg → ∀ (w₀ : World) (id : Uuid),
        w₀.db.transfers.lookup id = none → ∀ (tr : List (Step World Call))
        (P : Pool World Error Answer Call),
        Run (program env) (fun c => c.onTransfer = true) w₀ tr P → ∀ t,
        AttemptsExhausted id t tr P.state → MoneyReturned id t tr P.state := by
  intro h
  have hbalance := (h sampleEnv (by decide) (feesNonneg_of_feeMin (by decide)) sampleWorld 100 rfl
    _ _ (exec_run sampleAttempts fun _ => sampleAttempts_onTransfer) sampleFailed
    sampleAttempts_exhausted).balance
  revert hbalance
  decide +kernel

end BankDemo
