import BankDemo.System.Rows

/-!
# The life of a transfer

What calls do to one transfer, one call at a time, without the database: a call replaces the row by
another (`Life`) and moves some money (`Money`), which is added to customer accounts or taken out
of the suspense account. `Atomic.life` connects this to the calls of the system: what a call does
to the database as one step is what it does in the life of its transfer, and nothing to other
transfers.
-/

namespace BankDemo

open Ledger Transfers Admin

/-- What is added to customer accounts, and what is put into suspense. -/
structure Money where
  added : ℤ
  suspense : ℤ

namespace Money

/-- Nothing is moved. -/
def nothing : Money := ⟨0, 0⟩

/-- The delivery of a transfer, out of suspense, or that of an inflow, which is not in it. -/
def settlement (t : Transfer) : Money where
  added := if (creditedAccount t).isSome then t.amountCents else 0
  suspense := if isInflow t.kind then 0 else -t.amountCents

/-- The refund of a rejected transfer, out of suspense. -/
def rejection (t : Transfer) : Money := ⟨t.amountCents + t.feeCents, -t.amountCents⟩

/-- The refund of a reversed wire, out of cash. -/
def reversal (t : Transfer) : Money := ⟨t.amountCents + t.feeCents, 0⟩

end Money

/-! ## The calls -/

/-- A run of the worker settles the transfer, if it may settle, or does nothing. -/
def MaySettle (pc : ProcessCall) (t t' : Transfer) (m : Money) : Prop :=
  (t' = t ∧ m = .nothing) ∨ (settleable t = true ∧ t' = stampSettled pc t ∧ m = .settlement t)

/-- The row after `forceSettle` has made it pending. -/
def reopened (t : Transfer) : Transfer := if t.status = .pending then t else resetToPending t

/-- An approval stamps a transfer under review and settles it, or does nothing. -/
def MayApprove (pc : ProcessCall) (f : Transfer → Transfer) (t t' : Transfer) (m : Money) : Prop :=
  (t' = t ∧ m = .nothing) ∨ (t.requiresReview = true ∧ t.reviewedAt = none ∧
    MaySettle pc (reopened (f t)) t' m)

/-- A rejection refunds a transfer under review, or does nothing. -/
def MayReject (dc : DecideCall) (t t' : Transfer) (m : Money) : Prop :=
  (t' = t ∧ m = .nothing) ∨ (t.requiresReview = true ∧ t.reviewedAt = none ∧
    t' = stampRejected dc.actorUserId (dc.reason.getD "Rejected by admin") dc.now t ∧
    m = .rejection t)

/-- A reversal refunds a wire that is not reversed, or does nothing. -/
def MayReverse (rc : ReverseCall) (t t' : Transfer) (m : Money) : Prop :=
  (t' = t ∧ m = .nothing) ∨ (t.kind = .wireOut ∧ t.status ≠ .reversed ∧
    t' = stampReversed rc t t ∧ m = .reversal t)

/-- The transfer is given up, or nothing is done. -/
def MayFail (t t' : Transfer) (m : Money) : Prop :=
  m = .nothing ∧ (t' = t ∨ ∃ reason now, t' = stampFailed reason now t)

/-- What a call on a transfer does in its life. -/
def Life (t t' : Transfer) (m : Money) : Call → Prop
  | .process pc => MaySettle pc t t' m
  | .runJob pc => MaySettle pc t t' m ∨ (settleable t = true ∧ MayFail t t' m)
  | .forceSettle fc => MaySettle fc.worker (reopened t) t' m
  | .decide dc => match dc.decision with
    | .approved => MayApprove dc.settle.worker
        (stampApproved dc.actorUserId dc.reason dc.now) t t' m
    | .rejected => MayReject dc t t' m
  | .approve ac =>
    MayApprove ac.settle.worker (stampApproved ac.actorUserId ac.reason ac.now) t t' m
  | .reverse rc => MayReverse rc t t' m
  | .markFailed .. => MayFail t t' m
  | _ => False

/-! ## The database -/

/-- The money was moved. -/
structure Moved (m : Money) (db db' : Db) : Prop where
  added : raised db db' = max 0 m.added
  suspense : db'.net .pendingOut = db.net .pendingOut + m.suspense

/-- The row of transfer `id` was replaced, other transfers stayed, and the money was moved. -/
structure Recorded (id : Uuid) (t t' : Transfer) (m : Money) (db db' : Db) : Prop where
  row : Table.Replaced id t t' db.transfers db'.transfers
  moved : Moved m db db'

theorem moved_nothing {db db' : Db} (haccounts : db'.accounts = db.accounts)
    (hjournal : db'.journal = db.journal) : Moved .nothing db db' := by
  refine ⟨?_, ?_⟩
  · rw [raised_of_accounts_eq haccounts]
    rfl
  · rw [net_of_journal_eq hjournal]
    exact (add_zero _).symm

theorem Moved.after {m : Money} {db db₁ db' : Db} (h : Moved m db₁ db')
    (haccounts : db₁.accounts = db.accounts) (hjournal : db₁.journal = db.journal) :
    Moved m db db' := by
  refine ⟨?_, ?_⟩
  · rw [← h.added]
    simp only [raised, balance_of_accounts_eq haccounts]
  · rw [h.suspense, net_of_journal_eq hjournal]

theorem net_settleLegs_pendingOut (t : Transfer) :
    DoubleEntry.net (legs (settleLegs t)) .pendingOut = (Money.settlement t).suspense := by
  unfold settleLegs Money.settlement accountSubLedgerCode
  cases ha : destination t with
  | some a =>
    have hin : isInflow t.kind = false := by
      unfold destination at ha
      split at ha
      · rename_i hkind
        rcases hkind with hkind | hkind <;> rw [hkind] <;> rfl
      · cases ha
    simp only [hin]
    rw [net_debit_credit]
    simp
  | none =>
    simp only
    split
    · rw [net_debit_credit]
      simp
    · rw [net_debit_credit]
      simp

theorem net_refundLegs_pendingOut (source : LedgerCode) (t : Transfer) :
    DoubleEntry.net (legs (refundLegs source t)) .pendingOut =
      if source = .pendingOut then -t.amountCents else 0 := by
  simp only [refundLegs, accountSubLedgerCode]
  rw [legs_append, DoubleEntry.net_append, net_debit_credit, net_feeLegs_other (by simp) (by simp)]
  by_cases hs : source = .pendingOut <;> simp [hs]

theorem moved_settlement {pc : ProcessCall} {t : Transfer} {db db' : Db}
    (h : Settled pc t db db') : Moved (.settlement t) db db' := by
  refine ⟨?_, by rw [h.booked.net, net_settleLegs_pendingOut]⟩
  have hbalance := h.balance
  unfold Money.settlement
  cases hc : creditedAccount t with
  | none =>
    rw [hc] at hbalance
    rw [raised_of_accounts_eq hbalance]
    rfl
  | some a =>
    rw [hc] at hbalance
    exact Credited.raised hbalance

theorem moved_rejection {t : Transfer} {src : JournalSource} {db db' : Db}
    (h : Refunded t src .pendingOut db db') : Moved (.rejection t) db db' := by
  refine ⟨h.balance.raised, ?_⟩
  rw [h.booked.net, net_refundLegs_pendingOut]
  rfl

theorem moved_reversal {t : Transfer} {src : JournalSource} {db db' : Db}
    (h : Refunded t src .cash db db') : Moved (.reversal t) db db' := by
  refine ⟨h.balance.raised, ?_⟩
  rw [h.booked.net, net_refundLegs_pendingOut]
  rfl

section Steps

variable {id : Uuid} {t : Transfer} {db db' : Db}

theorem recorded_nothing (ht : db.transfers.lookup id = some t) :
    Recorded id t t .nothing db db :=
  ⟨.refl ht, moved_nothing rfl rfl⟩

theorem recorded_restamped {f : Transfer → Transfer} (h : Restamped id f db db')
    (ht : db.transfers.lookup id = some t) : Recorded id t (f t) .nothing db db' := by
  obtain ⟨T, rfl, hT⟩ := h
  exact ⟨hT.replaced ht, moved_nothing rfl rfl⟩

/-- A stamp before the money is moved. -/
theorem Recorded.after_restamped {f : Transfer → Transfer} {t' : Transfer} {m : Money} {db₁ : Db}
    (h : Recorded id (f t) t' m db₁ db') (hstamp : Restamped id f db db₁)
    (ht : db.transfers.lookup id = some t) : Recorded id t t' m db db' := by
  obtain ⟨T, rfl, hT⟩ := hstamp
  exact ⟨(hT.replaced ht).trans h.row, h.moved.after rfl rfl⟩

theorem SettleStep.life {pc : ProcessCall} (h : SettleStep pc db db')
    (ht : db.transfers.lookup pc.transferId = some t) :
    ∃ t' m, MaySettle pc t t' m ∧ Recorded pc.transferId t t' m db db' := by
  rcases h with rfl | ⟨t₁, ht₁, hs, hsettled⟩
  · exact ⟨t, _, .inl ⟨rfl, rfl⟩, recorded_nothing ht⟩
  · obtain rfl := Option.some.inj (ht.symm.trans ht₁)
    exact ⟨_, _, .inr ⟨hs, rfl, rfl⟩, hsettled.transfers.replaced ht, moved_settlement hsettled⟩

theorem ForceStep.life {fc : ForceSettleCall} (h : ForceStep fc db db')
    (ht : db.transfers.lookup fc.transferId = some t) :
    ∃ t' m, MaySettle fc.worker (reopened t) t' m ∧ Recorded fc.transferId t t' m db db' := by
  obtain ⟨db₁, hreopen, hsettle⟩ := h
  rcases hreopen with ⟨hpending, rfl⟩ | ⟨t₁, ht₁, hstatus, hreset⟩
  · rw [reopened, if_pos (hpending t ht)]
    exact hsettle.life ht
  · obtain rfl := Option.some.inj (ht.symm.trans ht₁)
    rw [reopened, if_neg hstatus]
    have ht' : db₁.transfers.lookup fc.transferId = some (resetToPending t) := by
      rw [hreset.lookup, if_pos rfl, ht, Option.map_some]
    obtain ⟨t', m, hmay, hrecorded⟩ := hsettle.life ht'
    exact ⟨t', m, hmay, hrecorded.after_restamped hreset ht⟩

theorem ApproveStep.life {fc : ForceSettleCall} {f : Transfer → Transfer}
    (h : ApproveStep fc f db db') (ht : db.transfers.lookup fc.transferId = some t) :
    ∃ t' m, MayApprove fc.worker f t t' m ∧ Recorded fc.transferId t t' m db db' := by
  rcases h with rfl | ⟨t₁, db₁, ht₁, hreview, hnew, hstamp, hforce⟩
  · exact ⟨t, _, .inl ⟨rfl, rfl⟩, recorded_nothing ht⟩
  · obtain rfl := Option.some.inj (ht.symm.trans ht₁)
    have ht' : db₁.transfers.lookup fc.transferId = some (f t) := by
      rw [hstamp.lookup, if_pos rfl, ht, Option.map_some]
    obtain ⟨t', m, hmay, hrecorded⟩ := hforce.life ht'
    exact ⟨t', m, .inr ⟨hreview, hnew, hmay⟩, hrecorded.after_restamped hstamp ht⟩

theorem FailStep.life (h : FailStep id db db') (ht : db.transfers.lookup id = some t) :
    ∃ t' m, MayFail t t' m ∧ Recorded id t t' m db db' := by
  rcases h with rfl | ⟨reason, now, hstamp⟩
  · exact ⟨t, _, ⟨rfl, .inl rfl⟩, recorded_nothing ht⟩
  · exact ⟨_, _, ⟨rfl, .inr ⟨reason, now, rfl⟩⟩, recorded_restamped hstamp ht⟩

/-- **A call as one step is a step in the life of its transfer.** -/
theorem Atomic.life {env : Env} {c : Call} (h : Atomic env db db' c) (hc : c.subject = some id)
    (ht : db.transfers.lookup id = some t) :
    ∃ t' m, Life t t' m c ∧ Recorded id t t' m db db' := by
  cases c with
  | process pc =>
    cases hc
    exact SettleStep.life h ht
  | runJob pc =>
    cases hc
    rcases h with h | ⟨⟨t₁, ht₁, hs⟩, h⟩
    · obtain ⟨t', m, hmay, hrecorded⟩ := SettleStep.life h ht
      exact ⟨t', m, .inl hmay, hrecorded⟩
    · obtain rfl := Option.some.inj (ht.symm.trans ht₁)
      obtain ⟨t', m, hmay, hrecorded⟩ := FailStep.life h ht
      exact ⟨t', m, .inr ⟨hs, hmay⟩, hrecorded⟩
  | forceSettle fc =>
    cases hc
    exact ForceStep.life h ht
  | decide dc =>
    cases hc
    simp only [Atomic, Life] at h ⊢
    cases hd : dc.decision with
    | approved =>
      simp only [hd] at h ⊢
      exact ApproveStep.life h ht
    | rejected =>
      simp only [hd] at h ⊢
      rcases h with rfl | ⟨t₁, ht₁, hreview, hnew, hrej⟩
      · exact ⟨t, _, .inl ⟨rfl, rfl⟩, recorded_nothing ht⟩
      · obtain rfl := Option.some.inj (ht.symm.trans ht₁)
        exact ⟨_, _, .inr ⟨hreview, hnew, rfl, rfl⟩, hrej.transfers.replaced ht,
          moved_rejection hrej.refunded⟩
  | approve ac =>
    cases hc
    exact ApproveStep.life h ht
  | reverse rc =>
    cases hc
    rcases h with rfl | ⟨t₁, ht₁, hkind, hstatus, hrev⟩
    · exact ⟨t, _, .inl ⟨rfl, rfl⟩, recorded_nothing ht⟩
    · obtain rfl := Option.some.inj (ht.symm.trans ht₁)
      exact ⟨_, _, .inr ⟨hkind, hstatus, rfl, rfl⟩, hrev.transfers.replaced ht,
        moved_reversal hrev.refunded⟩
  | markFailed _ reason now =>
    cases hc
    exact FailStep.life h ht
  | _ => cases hc

/-- A call on a transfer that does not exist does nothing. -/
theorem Atomic.absent {env : Env} {c : Call} (h : Atomic env db db' c) (hc : c.subject = some id)
    (ht : db.transfers.lookup id = none) : db' = db := by
  have hnone : ∀ {t : Transfer}, db.transfers.lookup id ≠ some t := by simp [ht]
  have hforce : ∀ {fc : ForceSettleCall}, fc.transferId = id → ForceStep fc db db' → db' = db := by
    rintro fc rfl ⟨db₁, ⟨-, rfl⟩ | ⟨t, ht, -⟩, hsettle⟩
    · rcases hsettle with hdb | ⟨t, ht, -⟩
      · exact hdb
      · exact absurd ht hnone
    · exact absurd ht hnone
  have happrove : ∀ {fc : ForceSettleCall} {f : Transfer → Transfer}, fc.transferId = id →
      ApproveStep fc f db db' → db' = db := by
    rintro fc f rfl (hdb | ⟨t, -, ht, -⟩)
    · exact hdb
    · exact absurd ht hnone
  have hfail : FailStep id db db' → db' = db := by
    rintro (hdb | ⟨reason, now, T, rfl, ⟨r, hr, -⟩ | ⟨-, rfl⟩⟩)
    · exact hdb
    · exact absurd hr hnone
    · rfl
  cases c with
  | process pc =>
    cases hc
    rcases h with hdb | ⟨t, ht, -⟩
    · exact hdb
    · exact absurd ht hnone
  | runJob pc =>
    cases hc
    rcases h with (hdb | ⟨t, ht, -⟩) | ⟨⟨t, ht, -⟩, -⟩
    · exact hdb
    · exact absurd ht hnone
    · exact absurd ht hnone
  | forceSettle fc =>
    cases hc
    exact hforce rfl h
  | decide dc =>
    cases hc
    simp only [Atomic] at h
    cases hd : dc.decision with
    | approved =>
      simp only [hd] at h
      exact happrove rfl h
    | rejected =>
      simp only [hd] at h
      rcases h with hdb | ⟨t, ht, -⟩
      · exact hdb
      · exact absurd ht hnone
  | approve ac =>
    cases hc
    exact happrove rfl h
  | reverse rc =>
    cases hc
    rcases h with hdb | ⟨t, ht, -⟩
    · exact hdb
    · exact absurd ht hnone
  | markFailed _ reason now =>
    cases hc
    exact hfail h
  | _ => cases hc

/-- A call on transfers does nothing to the row of another transfer. -/
theorem Atomic.lookup_other {env : Env} {c : Call} (h : Atomic env db db' c)
    (hedit : c.isEdit = false) (hc : c.subject ≠ some id)
    (ht : db.transfers.lookup id = some t) : db'.transfers.lookup id = some t := by
  cases hsubject : c.subject with
  | some id' =>
    have hid : id ≠ id' := by
      rintro rfl
      exact hc hsubject
    cases ht' : db.transfers.lookup id' with
    | none => rw [h.absent hsubject ht', ht]
    | some t₁ =>
      obtain ⟨_, _, -, hrecorded⟩ := h.life hsubject ht'
      rw [hrecorded.row.lookup, if_neg hid, ht]
  | none =>
    cases c with
    | initiate ic =>
      rcases h with rfl | ⟨t₁, -, -, hinit⟩
      · exact ht
      · exact hinit.transfers.lookup_old ht
    | patch | create | delete | hide | clearOverride | bulkShift => cases hedit
    | _ => cases hsubject

/-- A transfer is created by `initiate` only. -/
theorem Atomic.created {env : Env} {c : Call} (h : Atomic env db db' c)
    (hedit : c.isEdit = false) (hnone : db.transfers.lookup id = none)
    (ht : db'.transfers.lookup id = some t) :
    ∃ ic, c = .initiate ic ∧ id = ic.transferId ∧ Admitted env ic t ∧ Initiated ic t db db' := by
  cases hsubject : c.subject with
  | some id' =>
    cases ht' : db.transfers.lookup id' with
    | none =>
      rw [h.absent hsubject ht', hnone] at ht
      cases ht
    | some t₁ =>
      obtain ⟨_, _, -, hrecorded⟩ := h.life hsubject ht'
      rw [hrecorded.row.lookup] at ht
      split at ht
      · rename_i hid
        rw [hid, ht'] at hnone
        cases hnone
      · rw [hnone] at ht
        cases ht
  | none =>
    cases c with
    | initiate ic =>
      rcases h with rfl | ⟨t₁, hadmitted, -, hinit⟩
      · rw [hnone] at ht
        cases ht
      · have hlookup := hinit.transfers.lookup id
        rw [ht] at hlookup
        split at hlookup
        · rename_i hid
          obtain rfl := Option.some.inj hlookup
          exact ⟨ic, rfl, hid, hadmitted, hinit⟩
        · rw [hnone] at hlookup
          cases hlookup
    | patch | create | delete | hide | clearOverride | bulkShift => cases hedit
    | _ => cases hsubject

end Steps

/-! ## Terms -/

theorem terms_reopened (t : Transfer) : (reopened t).terms = t.terms := by
  unfold reopened
  split <;> rfl

theorem MaySettle.terms {pc : ProcessCall} {t t' : Transfer} {m : Money}
    (h : MaySettle pc t t' m) : t'.terms = t.terms := by
  rcases h with ⟨rfl, -⟩ | ⟨-, rfl, -⟩ <;> rfl

theorem MayApprove.terms {pc : ProcessCall} {f : Transfer → Transfer} {t t' : Transfer} {m : Money}
    (h : MayApprove pc f t t' m) (hf : (f t).terms = t.terms) : t'.terms = t.terms := by
  rcases h with ⟨rfl, -⟩ | ⟨-, -, hmay⟩
  · rfl
  · rw [hmay.terms, terms_reopened, hf]

/-- A transfer keeps its terms all its life. -/
theorem Life.terms {t t' : Transfer} {m : Money} {c : Call} (h : Life t t' m c) :
    t'.terms = t.terms := by
  have hfail : MayFail t t' m → t'.terms = t.terms := by
    rintro ⟨-, rfl | ⟨_, _, rfl⟩⟩ <;> rfl
  cases c with
  | process pc => exact MaySettle.terms h
  | runJob pc =>
    rcases h with h | ⟨-, h⟩
    · exact h.terms
    · exact hfail h
  | forceSettle fc => rw [MaySettle.terms h, terms_reopened]
  | decide dc =>
    simp only [Life] at h
    split at h
    · exact h.terms rfl
    · rcases h with ⟨rfl, -⟩ | ⟨-, -, rfl, -⟩ <;> rfl
  | approve ac => exact MayApprove.terms h rfl
  | reverse rc => rcases h with ⟨rfl, -⟩ | ⟨-, -, rfl, -⟩ <;> rfl
  | markFailed _ reason now => exact hfail h
  | _ => cases h

end BankDemo
