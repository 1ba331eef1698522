import BankDemo.System.Lifecycle

/-!
# The suspense account

`initiate` puts the amount of a transfer into `PENDING_OUT`, and what ends the transfer should take
it out. A settlement does, unless the transfer is an inflow, and so does a rejection; but the
reversal of a wire takes the refund out of cash, also when the wire is still pending, and
`markFailed` makes no posting at all.

* `suspense_reconciles`: in sequences without an inflow that settles, a reversal of a pending wire
  or a failure of a pending transfer, the net credit of `PENDING_OUT` is the sum of the amounts of
  the pending transfers.
-/

namespace BankDemo

open Ledger Transfers Admin

/-- What a transfer should have in suspense. -/
def pendingAmount (t : Transfer) : ℤ := if t.status = .pending then t.amountCents else 0

/-- The calls the suspense account is about. -/
def Call.inSuspense : Call → Bool
  | .initiate _ | .process _ | .decide _ | .approve _ | .reverse _ | .markFailed .. => true
  | _ => false

/-- The call takes the amount of the transfer out of suspense when it ends it: it is not a
settlement of an inflow, a reversal of a pending wire or a failure of a pending transfer. -/
def releases (t : Transfer) : Call → Bool
  | .process _ => !(settleable t && isInflow t.kind)
  | .reverse _ => !(t.kind = .wireOut && t.status = .pending)
  | .markFailed .. => t.status ≠ .pending
  | _ => true

/-- The step releases what its transfer has in suspense. -/
def Releases (x : Step World Call) : Prop :=
  ∀ id ∈ x.call.subject, ∀ t ∈ x.pre.db.transfers.lookup id, releases t x.call = true

instance (x : Step World Call) : Decidable (Releases x) :=
  inferInstanceAs (Decidable (∀ id ∈ x.call.subject, ∀ t ∈ x.pre.db.transfers.lookup id, _))

/-! ## In the life of a transfer -/

/-- The review of a transfer is in order: it is no inflow and pending until it is reviewed. -/
structure InReview (t : Transfer) : Prop where
  inflow : t.requiresReview = true → isInflow t.kind = false
  pending : t.requiresReview = true → t.reviewedAt = none → t.status = .pending
  decided : t.reviewDecision ≠ none → t.reviewedAt ≠ none

theorem inReview_new (env : Env) (c : InitiateCall) (s fee : ℤ)
    (toAccount : Option (Uuid × Account)) : InReview (newTransfer env c s fee toAccount) := by
  refine ⟨fun hflag => ?_, fun _ _ => rfl, fun hdecision => absurd rfl hdecision⟩
  simp only [newTransfer, requiresReview, Bool.or_eq_true, Bool.and_eq_true,
    decide_eq_true_eq] at hflag ⊢
  rcases hflag with (hkind | hkind) | ⟨(hkind | hkind) | hkind, -⟩ <;> rw [hkind] <;> rfl

theorem inReview_reviewed {t : Transfer} (hreviewed : t.reviewedAt ≠ none)
    (hinflow : t.requiresReview = true → isInflow t.kind = false) : InReview t :=
  ⟨hinflow, fun _ hnew => absurd hnew hreviewed, fun _ => hreviewed⟩

theorem pendingAmount_of_pending {t : Transfer} (h : t.status = .pending) :
    pendingAmount t = t.amountCents := if_pos h

theorem pendingAmount_of_ne {t : Transfer} (h : t.status ≠ .pending) : pendingAmount t = 0 :=
  if_neg h

/-- What was taken out of suspense is what should not be there any more. -/
def Balances (t t' : Transfer) (m : Money) : Prop :=
  InReview t' ∧ m.suspense = pendingAmount t' - pendingAmount t

theorem balances_nothing {t : Transfer} (h : InReview t) : Balances t t .nothing :=
  ⟨h, by simp [Money.nothing]⟩

theorem MaySettle.balances {pc : ProcessCall} {t t' : Transfer} {m : Money}
    (h : MaySettle pc t t' m) (hreview : InReview t)
    (hkind : settleable t = true → isInflow t.kind = false) : Balances t t' m := by
  rcases h with ⟨rfl, rfl⟩ | ⟨hs, rfl, rfl⟩
  · exact balances_nothing hreview
  · have hpending := pending_of_settleable hs
    refine ⟨⟨hreview.inflow, fun hflag hnew => ?_, hreview.decided⟩, ?_⟩
    · -- a settlement under review comes after a decision
      have happroved := approved_of_settleable hs hflag
      exact absurd hnew (hreview.decided (by simp [happroved]))
    · rw [pendingAmount_of_pending hpending, pendingAmount_of_ne (by simp [stampSettled]),
        Money.settlement, hkind hs]
      simp

theorem MayApprove.balances {pc : ProcessCall} {actor : Uuid} {reason : Option String}
    {now : Instant} {t t' : Transfer} {m : Money}
    (h : MayApprove pc (stampApproved actor reason now) t t' m) (hreview : InReview t) :
    Balances t t' m := by
  rcases h with ⟨rfl, rfl⟩ | ⟨hflag, hnew, hmay⟩
  · exact balances_nothing hreview
  · have hpending := hreview.pending hflag hnew
    have hstamp : (stampApproved actor reason now t).status = .pending := hpending
    rw [reopened, if_pos hstamp] at hmay
    have hreview' : InReview (stampApproved actor reason now t) :=
      inReview_reviewed (by simp [stampApproved]) hreview.inflow
    exact hmay.balances hreview' fun _ => hreview.inflow hflag

theorem Life.balances {t t' : Transfer} {m : Money} {c : Call} (h : Life t t' m c)
    (hc : c.inSuspense = true) (hreview : InReview t) (hreleases : releases t c = true) :
    Balances t t' m := by
  cases c with
  | process pc =>
    refine MaySettle.balances h hreview fun hs => ?_
    simpa [releases, hs] using hreleases
  | decide dc =>
    simp only [Life] at h
    split at h
    · exact h.balances hreview
    · rcases h with ⟨rfl, rfl⟩ | ⟨hflag, hnew, rfl, rfl⟩
      · exact balances_nothing hreview
      · refine ⟨inReview_reviewed (by simp [stampRejected]) hreview.inflow, ?_⟩
        rw [pendingAmount_of_pending (hreview.pending hflag hnew),
          pendingAmount_of_ne (by simp [stampRejected]), Money.rejection]
        simp
  | approve ac => exact MayApprove.balances h hreview
  | reverse rc =>
    rcases h with ⟨rfl, rfl⟩ | ⟨hkind, -, rfl, rfl⟩
    · exact balances_nothing hreview
    · have hstatus : t.status ≠ .pending := by simpa [releases, hkind] using hreleases
      refine ⟨⟨hreview.inflow, fun hflag hnew => absurd (hreview.pending hflag hnew) hstatus,
        hreview.decided⟩, ?_⟩
      rw [pendingAmount_of_ne hstatus, pendingAmount_of_ne (by simp [stampReversed])]
      rfl
  | markFailed _ reason now =>
    have hstatus : t.status ≠ .pending := by simpa [releases] using hreleases
    obtain ⟨rfl, rfl | ⟨_, _, rfl⟩⟩ := h
    · exact balances_nothing hreview
    · refine ⟨⟨hreview.inflow, fun hflag hnew => absurd (hreview.pending hflag hnew) hstatus,
        hreview.decided⟩, ?_⟩
      rw [pendingAmount_of_ne hstatus, pendingAmount_of_ne (by simp [stampFailed])]
      rfl
  | initiate => cases h
  | _ => cases hc

/-! ## Over a sequence of calls -/

/-- The suspense account reconciles, and the reviews of all transfers are in order. -/
structure Reconciled (db : Db) : Prop where
  suspense : db.net .pendingOut = db.transfers.total pendingAmount
  inReview : ∀ id t, db.transfers.lookup id = some t → InReview t

theorem net_pendingLegs_pendingOut (t : Transfer) :
    DoubleEntry.net (legs (pendingLegs t)) .pendingOut = t.amountCents := by
  simp only [pendingLegs, accountSubLedgerCode]
  rw [legs_append, DoubleEntry.net_append, net_debit_credit, net_feeLegs_other (by simp) (by simp)]
  simp

theorem reconciled_initiated {env : Env} {ic : InitiateCall} {t : Transfer} {db db' : Db}
    (hadmitted : Admitted env ic t) (hinit : Initiated ic t db db') (h : Reconciled db) :
    Reconciled db' := by
  obtain ⟨s, fx, toAccount, -, -, rfl⟩ := hadmitted.row
  refine ⟨?_, fun id t ht => ?_⟩
  · rw [hinit.booked.net, net_pendingLegs_pendingOut, hinit.transfers.2,
      Table.total_insert_new hinit.transfers.1, h.suspense, pendingAmount_of_pending rfl]
    exact add_comm _ _
  · rw [hinit.transfers.lookup] at ht
    split at ht
    · obtain rfl := Option.some.inj ht
      exact inReview_new env ic s _ toAccount
    · exact h.inReview id t ht

/-- The step lemma. -/
theorem Reconciled.step {env : Env} {w w' : World} {c : Call} (h : Reconciled w.db)
    (hc : c.inSuspense = true) (hatomic : Atomic env w.db w'.db c)
    (hreleases : Releases ⟨0, c, w, w'⟩) : Reconciled w'.db := by
  cases hsubject : c.subject with
  | none =>
    cases c with
    | initiate ic =>
      rcases hatomic with hdb | ⟨t, hadmitted, -, hinit⟩
      · rw [hdb]
        exact h
      · exact reconciled_initiated hadmitted hinit h
    | process | decide | approve | reverse | markFailed => cases hsubject
    | _ => cases hc
  | some id =>
    cases hrow : w.db.transfers.lookup id with
    | none =>
      rw [hatomic.absent hsubject hrow]
      exact h
    | some t =>
      obtain ⟨t', m, hlife, hrecorded⟩ := hatomic.life hsubject hrow
      obtain ⟨hreview', hsuspense⟩ := hlife.balances hc (h.inReview id t hrow)
        (hreleases id hsubject t hrow)
      refine ⟨?_, fun id' t₁ ht₁ => ?_⟩
      · rw [hrecorded.moved.suspense, hrecorded.row.total, h.suspense, hsuspense]
        ring
      · rw [hrecorded.row.lookup] at ht₁
        split at ht₁
        · obtain rfl := Option.some.inj ht₁
          exact hreview'
        · exact h.inReview id' t₁ ht₁

/-- **The suspense account reconciles.** In every sequence of `initiate`, `process`, reviews,
`reverse` and `markFailed` from an empty suspense account: if no inflow is settled, no pending wire
reversed and no pending transfer marked as failed, then the net credit of `PENDING_OUT` is the sum
of the amounts of the pending transfers, so that it is zero when there are none. -/
theorem suspense_reconciles (env : Env) (w₀ : World)
    (hnew : ∀ id, w₀.db.transfers.lookup id = none) (hempty : w₀.db.net .pendingOut = 0)
    (tr : List (Step World Call)) (w : World)
    (hseq : Sequence env (fun c => c.inSuspense = true) w₀ tr w)
    (hreleases : ∀ x ∈ tr, Releases x) :
    w.db.net .pendingOut = w.db.transfers.total pendingAmount ∧
      ((∀ id t, w.db.transfers.lookup id = some t → t.status ≠ .pending) →
        w.db.net .pendingOut = 0) := by
  have hreconciled : Reconciled w.db := by
    refine Sequence.induct (I := fun tr w => (∀ x ∈ tr, Releases x) → Reconciled w.db)
      (fun _ => ⟨?_, ?_⟩) (fun tr w c w' hI hc hatomic hreleases => ?_) hseq hreleases
    · rw [hempty, Table.total_eq_zero]
      intro e he
      have hlookup := List.mem_dlookup w₀.db.transfers.nodupKeys he
      exact absurd hlookup (by simp [show w₀.db.transfers.entries.dlookup e.1 = none from hnew e.1])
    · intro id t ht
      rw [hnew] at ht
      cases ht
    · exact (hI fun x hx => hreleases x (List.mem_cons_of_mem _ hx)).step hc hatomic
        (hreleases _ List.mem_cons_self)
  refine ⟨hreconciled.suspense, fun hnone => ?_⟩
  rw [hreconciled.suspense]
  refine Table.total_eq_zero fun e he => pendingAmount_of_ne ?_
  exact hnone e.1 e.2 (List.mem_dlookup w.db.transfers.nodupKeys he)

/-- A payment of 20.00 that is settled, and a wire of 30.00 that is rejected. -/
def sampleOutcomes : List Call :=
  [.initiate (samplePay .p2p 20 100 2000 false), .initiate (samplePay .wireOut 20 110 3000 false),
    .process (sampleSettle 100 200), .decide (sampleDecide .rejected 110 300)]

theorem suspense_reconciles_outcomes :
    (oneAtATime sampleEnv sampleWorld sampleOutcomes).2.db.balance 10 = 498000 ∧
      (oneAtATime sampleEnv sampleWorld sampleOutcomes).2.db.net .pendingOut =
        (oneAtATime sampleEnv sampleWorld sampleOutcomes).2.db.transfers.total pendingAmount := by
  have hcalls : ∀ c ∈ sampleOutcomes, c.inSuspense = true := by
    simp [sampleOutcomes, Call.inSuspense]
  exact ⟨by decide +kernel, (suspense_reconciles sampleEnv sampleWorld (fun _ => rfl) rfl _ _
    (oneAtATime_sequence sampleOutcomes hcalls) (by decide +kernel)).1⟩

/-- A wire of 20.00 is reversed before it is reviewed: its amount stays in suspense, with no
transfer pending. -/
theorem suspense_left_by_reversal :
    ¬ ∀ (env : Env) (w₀ : World), (∀ id, w₀.db.transfers.lookup id = none) →
        w₀.db.net .pendingOut = 0 → ∀ (tr : List (Step World Call)) (w : World),
        Sequence env (fun c => c.inSuspense = true) w₀ tr w →
        w.db.net .pendingOut = w.db.transfers.total pendingAmount := by
  intro h
  have hcalls : ∀ c ∈ [Call.initiate (samplePay .wireOut 20 100 2000 false),
      .reverse (sampleReverse 100 200)], c.inSuspense = true := by
    simp [Call.inSuspense]
  have hnet := h sampleEnv sampleWorld (fun _ => rfl) rfl _ _ (oneAtATime_sequence _ hcalls)
  revert hnet
  decide +kernel

end BankDemo
