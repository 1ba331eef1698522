import BankDemo.System.Lifecycle

/-!
# Conservation

What `initiate` takes from the sender goes to customer accounts once: it is delivered, or it is
refunded. Taken one call at a time, this holds for a transfer as long as nothing is done to it once
it is closed, that is delivered to an account or reversed as a wire. `forceSettle` makes a closed
transfer pending again, `markFailed` overwrites its status, and a review of a wire that was
reversed without a review is still open; after each of these the money can be given out again
(`delivered_twice`).

* `conservation`: as long as no call of these kinds finds the transfer closed, at most one call
  adds money to customer accounts on its behalf, and not more than amount and fee.
-/

namespace BankDemo

open Ledger Transfers Admin

/-- The money of the transfer has been delivered to an account, or has been returned by a reversal
or a rejection of a wire. -/
def closed (t : Transfer) : Bool :=
  (t.status = .posted && (destination t).isSome) || (t.kind = .wireOut && t.status = .reversed)

/-- The call sets the status of the transfer whatever it is: `forceSettle`, `markFailed`, and the
reviews when the transfer is not reviewed. -/
def overwrites (t : Transfer) : Call → Bool
  | .forceSettle _ | .markFailed .. => true
  | .decide _ | .approve _ => t.requiresReview && t.reviewedAt = none
  | _ => false

/-- The step does not overwrite the status of transfer `id` when it is closed. -/
def RespectsClosed (id : Uuid) (x : Step World Call) : Prop :=
  ∀ t ∈ x.pre.db.transfers.lookup id, x.call.subject = some id → closed t = true →
    overwrites t x.call = false

instance (id : Uuid) (x : Step World Call) : Decidable (RespectsClosed id x) :=
  inferInstanceAs (Decidable (∀ t ∈ x.pre.db.transfers.lookup id, _))

/-- The step adds money to customer accounts on behalf of transfer `id`. -/
def AddsFor (id : Uuid) (x : Step World Call) : Prop :=
  x.call.subject = some id ∧ 0 < raised x.pre.db x.post.db

/-- The total ever added to customer accounts on behalf of transfer `id`. -/
def addedFor (id : Uuid) (tr : List (Step World Call)) : ℤ :=
  (tr.map fun x => if x.call.subject = some id then raised x.pre.db x.post.db else 0).sum

/-! ## In the life of a transfer -/

/-- The money of the transfer has been given out: it is closed, or it was rejected. -/
def Spent (t : Transfer) : Prop :=
  closed t = true ∨ (t.kind ≠ .wireOut ∧ t.requiresReview = true ∧ t.reviewedAt ≠ none ∧
    t.reviewDecision = some .rejected)

theorem destination_some {t : Transfer} (h : (destination t).isSome = true) :
    t.kind ≠ .wireOut := by
  unfold destination at h
  split at h
  · rename_i hkind
    rcases hkind with hkind | hkind <;> simp [hkind]
  · cases h

theorem Spent.not_settleable {t : Transfer} (h : Spent t) : settleable t = false := by
  rcases h with hclosed | ⟨-, hflag, -, hdecision⟩
  · simp only [closed, Bool.or_eq_true, Bool.and_eq_true, decide_eq_true_eq] at hclosed
    rcases hclosed with ⟨hstatus, -⟩ | ⟨-, hstatus⟩ <;> simp [settleable, hstatus]
  · simp [settleable, hflag, hdecision]

theorem MaySettle.of_spent {pc : ProcessCall} {t t' : Transfer} {m : Money}
    (h : MaySettle pc t t' m) (hspent : Spent t) : t' = t ∧ m = .nothing := by
  rcases h with h | ⟨hs, -⟩
  · exact h
  · rw [hspent.not_settleable] at hs
    cases hs

/-- Once spent, a transfer stays so, and no more is added on its behalf. -/
theorem Life.spent {t t' : Transfer} {m : Money} {c : Call} (h : Life t t' m c) (hspent : Spent t)
    (hrespects : closed t = true → overwrites t c = false) : Spent t' ∧ m.added = 0 := by
  have hstays : t' = t ∧ m = .nothing → Spent t' ∧ m.added = 0 := by
    rintro ⟨rfl, rfl⟩
    exact ⟨hspent, rfl⟩
  -- a review goes through on transfers that are not reviewed only
  have hreview : (closed t = true → (t.requiresReview && decide (t.reviewedAt = none)) = false) →
      t.requiresReview = true → t.reviewedAt ≠ none := by
    intro hr hflag hnew
    rcases hspent with hclosed | ⟨-, -, hreviewed, -⟩
    · simpa [hflag, hnew] using hr hclosed
    · exact hreviewed hnew
  cases c with
  | process pc => exact hstays (MaySettle.of_spent h hspent)
  | runJob pc =>
    rcases h with h | ⟨hs, -⟩
    · exact hstays (h.of_spent hspent)
    · rw [hspent.not_settleable] at hs
      cases hs
  | forceSettle fc =>
    rcases hspent with hclosed | hrejected
    · cases hrespects hclosed
    · have hspent' : Spent (reopened t) := by
        refine .inr ?_
        unfold reopened
        split <;> exact hrejected
      obtain ⟨rfl, rfl⟩ := MaySettle.of_spent h hspent'
      exact ⟨hspent', rfl⟩
  | decide dc =>
    simp only [Life] at h
    split at h
    · rcases h with h | ⟨hflag, hnew, -⟩
      · exact hstays h
      · exact absurd hnew (hreview hrespects hflag)
    · rcases h with h | ⟨hflag, hnew, -⟩
      · exact hstays h
      · exact absurd hnew (hreview hrespects hflag)
  | approve ac =>
    rcases h with h | ⟨hflag, hnew, -⟩
    · exact hstays h
    · exact absurd hnew (hreview hrespects hflag)
  | reverse rc =>
    rcases h with h | ⟨hkind, hstatus, -⟩
    · exact hstays h
    · rcases hspent with hclosed | ⟨hne, -⟩
      · simp only [closed, Bool.or_eq_true, Bool.and_eq_true, decide_eq_true_eq] at hclosed
        rcases hclosed with ⟨-, hdest⟩ | ⟨-, hreversed⟩
        · exact absurd hkind (destination_some hdest)
        · exact absurd hreversed hstatus
      · exact absurd hkind hne
  | markFailed _ reason now =>
    rcases hspent with hclosed | hrejected
    · cases hrespects hclosed
    · obtain ⟨rfl, rfl | ⟨_, _, rfl⟩⟩ := h
      · exact ⟨.inr hrejected, rfl⟩
      · exact ⟨.inr hrejected, rfl⟩
  | _ => cases h

/-- Adding money to customer accounts spends a transfer that is no inflow: the amount is delivered
or all is refunded. -/
def Spends (t t' : Transfer) (m : Money) : Prop :=
  m.added = 0 ∨ (Spent t' ∧ (m.added = t.amountCents ∨ m.added = t.amountCents + t.feeCents))

theorem MaySettle.spends {pc : ProcessCall} {t t' : Transfer} {m : Money}
    (h : MaySettle pc t t' m) (hkind : isInflow t.kind = false) : Spends t t' m := by
  rcases h with ⟨-, rfl⟩ | ⟨-, rfl, rfl⟩
  · exact .inl rfl
  · cases ha : destination t with
    | none => exact .inl (by simp [Money.settlement, creditedAccount, ha, hkind])
    | some a =>
      refine .inr ⟨.inl ?_, .inl (by simp [Money.settlement, creditedAccount, ha])⟩
      have hdest : (destination (stampSettled pc t)).isSome = true := by
        rw [show destination (stampSettled pc t) = some a from ha]
        rfl
      rw [closed, hdest]
      rfl

theorem Life.spends {t t' : Transfer} {m : Money} {c : Call} (h : Life t t' m c)
    (hkind : isInflow t.kind = false) : Spends t t' m := by
  have hreopened : ∀ {pc : ProcessCall} {t₁ : Transfer}, MaySettle pc (reopened t₁) t' m →
      t₁.terms = t.terms → Spends t t' m := by
    intro pc t₁ hmay hterms
    have hterms' := (terms_reopened t₁).trans hterms
    have hkind' : isInflow (reopened t₁).kind = false := by rw [kind_of_terms hterms', hkind]
    have hspends := hmay.spends hkind'
    rwa [Spends, amount_of_terms hterms', fee_of_terms hterms'] at hspends
  cases c with
  | process pc => exact MaySettle.spends h hkind
  | runJob pc =>
    rcases h with h | ⟨-, rfl, -⟩
    · exact h.spends hkind
    · exact .inl rfl
  | forceSettle fc => exact hreopened h rfl
  | decide dc =>
    simp only [Life] at h
    split at h
    · rcases h with ⟨-, rfl⟩ | ⟨-, -, hmay⟩
      · exact .inl rfl
      · exact hreopened hmay rfl
    · rcases h with ⟨-, rfl⟩ | ⟨hflag, -, rfl, rfl⟩
      · exact .inl rfl
      · refine .inr ⟨?_, .inr rfl⟩
        by_cases hwire : t.kind = .wireOut
        · exact .inl (by simp [closed, stampRejected, hwire])
        · exact .inr ⟨hwire, hflag, by simp [stampRejected], rfl⟩
  | approve ac =>
    rcases h with ⟨-, rfl⟩ | ⟨-, -, hmay⟩
    · exact .inl rfl
    · exact hreopened hmay rfl
  | reverse rc =>
    rcases h with ⟨-, rfl⟩ | ⟨hwire, -, rfl, rfl⟩
    · exact .inl rfl
    · exact .inr ⟨.inl (by simp [closed, stampReversed, hwire]), .inr rfl⟩
  | markFailed _ reason now =>
    obtain ⟨rfl, -⟩ := h
    exact .inl rfl
  | _ => cases h

/-! ## Over a sequence of calls -/

/-- Nothing was added on behalf of transfer `id`. -/
def Untouched (id : Uuid) (tr : List (Step World Call)) : Prop :=
  (∀ x ∈ tr, ¬ AddsFor id x) ∧ addedFor id tr = 0

/-- How the money of transfer `id` stands: nothing was given out yet, or not more than amount and
fee, once. -/
structure Conserved (id : Uuid) (tr : List (Step World Call)) (t : Transfer) : Prop where
  amount : 0 ≤ t.amountCents
  fee : 0 ≤ t.feeCents
  once : AtMostOnce (AddsFor id) tr
  spent : Untouched id tr ∨ (Spent t ∧ addedFor id tr ≤ t.amountCents + t.feeCents)

section Trace

variable {id : Uuid} {tr : List (Step World Call)} {x : Step World Call} {t : Transfer}

theorem addedFor_cons (id : Uuid) (x : Step World Call) (tr : List (Step World Call)) :
    addedFor id (x :: tr) =
      (if x.call.subject = some id then raised x.pre.db x.post.db else 0) + addedFor id tr := rfl

theorem addedFor_of_not (hx : ¬ AddsFor id x) : addedFor id (x :: tr) = addedFor id tr := by
  rw [addedFor_cons]
  split
  · rename_i hid
    have hnonneg := raised_nonneg x.pre.db x.post.db
    have hle : ¬ 0 < raised x.pre.db x.post.db := fun hpos => hx ⟨hid, hpos⟩
    omega
  · omega

theorem not_addsFor_of_ne (hc : x.call.subject ≠ some id) : ¬ AddsFor id x := fun h => hc h.1

theorem Untouched.cons (h : Untouched id tr) (hx : ¬ AddsFor id x) : Untouched id (x :: tr) := by
  refine ⟨fun y hy => ?_, by rw [addedFor_of_not hx, h.2]⟩
  rcases List.mem_cons.1 hy with rfl | hy
  · exact hx
  · exact h.1 y hy

theorem Untouched.once (h : Untouched id tr) : AtMostOnce (AddsFor id) tr :=
  List.pairwise_of_forall_mem_list fun y hy _ _ hadds => absurd hadds (h.1 y hy)

theorem Conserved.cons (h : Conserved id tr t) {t' : Transfer} (hterms : t'.terms = t.terms)
    (hx : ¬ AddsFor id x) (hspent : Spent t → Spent t') : Conserved id (x :: tr) t' := by
  refine ⟨?_, ?_, h.once.cons fun hadds => absurd hadds hx, ?_⟩
  · rw [amount_of_terms hterms]
    exact h.amount
  · rw [fee_of_terms hterms]
    exact h.fee
  · rw [addedFor_of_not hx, amount_of_terms hterms, fee_of_terms hterms]
    exact h.spent.imp (fun hu => hu.cons hx) fun hs => ⟨hspent hs.1, hs.2⟩

end Trace

/-- The step lemma: a call on the transfer that does not overwrite its status when it is closed. -/
theorem Conserved.step {id : Uuid} {tr : List (Step World Call)} {x : Step World Call}
    {t t' : Transfer} {m : Money} (h : Conserved id tr t) (hkind : isInflow t.kind = false)
    (hc : x.call.subject = some id) (hlife : Life t t' m x.call)
    (hmoved : Moved m x.pre.db x.post.db)
    (hrespects : closed t = true → overwrites t x.call = false) : Conserved id (x :: tr) t' := by
  have hterms := hlife.terms
  have hadds : AddsFor id x ↔ 0 < m.added := by
    rw [AddsFor, hmoved.added]
    constructor
    · rintro ⟨-, hpos⟩
      omega
    · intro hpos
      exact ⟨hc, by omega⟩
  rcases h.spent with hu | ⟨hspent, -⟩
  · rcases hlife.spends hkind with hzero | ⟨hspent', hadded⟩
    · exact h.cons hterms (fun hx => by have := hadds.1 hx; omega) fun hspent =>
        (hlife.spent hspent hrespects).1
    · -- the money is given out now
      have hle : addedFor id (x :: tr) ≤ t'.amountCents + t'.feeCents := by
        rw [addedFor_cons, if_pos hc, hmoved.added, hu.2, amount_of_terms hterms,
          fee_of_terms hterms]
        have hamount := h.amount
        have hfee := h.fee
        rcases hadded with hadded | hadded <;> rw [hadded] <;> omega
      refine ⟨?_, ?_, hu.once.cons fun _ => hu.1, .inr ⟨hspent', hle⟩⟩
      · rw [amount_of_terms hterms]
        exact h.amount
      · rw [fee_of_terms hterms]
        exact h.fee
  · obtain ⟨hspent', hzero⟩ := hlife.spent hspent hrespects
    exact h.cons hterms (fun hx => by have := hadds.1 hx; omega) fun _ => hspent'

/-- The run lemma. -/
theorem sequence_conserved {env : Env} (hfees : env.cfg.FeesNonneg) (htotals : env.cfg.TotalsNonneg)
    {w₀ : World} {id : Uuid} (hnew : w₀.db.transfers.lookup id = none)
    {tr : List (Step World Call)} {w : World}
    (hseq : Sequence env (fun c => c.isEdit = false) w₀ tr w)
    (hrespects : ∀ x ∈ tr, RespectsClosed id x) :
    (w.db.transfers.lookup id = none → Untouched id tr) ∧
      ∀ t, w.db.transfers.lookup id = some t → isInflow t.kind = false → Conserved id tr t := by
  refine Sequence.induct (I := fun tr w => (∀ x ∈ tr, RespectsClosed id x) →
    (w.db.transfers.lookup id = none → Untouched id tr) ∧
      ∀ t, w.db.transfers.lookup id = some t → isInflow t.kind = false → Conserved id tr t)
    ?_ ?_ hseq hrespects
  · refine fun _ => ⟨fun _ => ⟨by simp, rfl⟩, fun t ht => ?_⟩
    rw [hnew] at ht
    cases ht
  · intro tr w c w' hI hedit hatomic hrespects
    obtain ⟨hnone, hsome⟩ := hI fun x hx => hrespects x (List.mem_cons_of_mem _ hx)
    cases hrow : w.db.transfers.lookup id with
    | none =>
      have huntouched := hnone hrow
      have hadds : ¬ AddsFor id ⟨0, c, w, w'⟩ := by
        rintro ⟨hc, hpos⟩
        rw [hatomic.absent hc hrow, raised_of_accounts_eq rfl] at hpos
        omega
      refine ⟨fun _ => huntouched.cons hadds, fun t ht _ => ?_⟩
      obtain ⟨ic, -, -, hadmitted, -⟩ := hatomic.created hedit hrow ht
      obtain ⟨s, fx, toAccount, -, hvalid, rfl⟩ := hadmitted.row
      exact ⟨(htotals _ _ _ _ hvalid).1, hfees _ _ _ _ hvalid, (huntouched.cons hadds).once,
        .inl (huntouched.cons hadds)⟩
    | some t =>
      by_cases hc : c.subject = some id
      · obtain ⟨t', m, hlife, hrecorded⟩ := hatomic.life hc hrow
        have hrow' : w'.db.transfers.lookup id = some t' := by
          rw [hrecorded.row.lookup, if_pos rfl]
        rw [hrow']
        refine ⟨by simp, fun t₁ ht₁ hkind => ?_⟩
        obtain rfl := Option.some.inj ht₁
        rw [kind_of_terms hlife.terms] at hkind
        exact (hsome t hrow hkind).step hkind hc hlife hrecorded.moved
          (hrespects ⟨0, c, w, w'⟩ List.mem_cons_self t hrow hc)
      · have hrow' := hatomic.lookup_other hedit hc hrow
        rw [hrow']
        refine ⟨by simp, fun t₁ ht₁ hkind => ?_⟩
        obtain rfl := Option.some.inj ht₁
        exact (hsome t hrow hkind).cons rfl (not_addsFor_of_ne hc) fun hspent => hspent

/-- **Conservation per transfer.** Under a configuration that quotes no negative amounts, fees and
totals, in every sequence of calls on transfers from a store without the transfer: if no call
overwrites the status of the transfer when it is closed, at most one call adds money to customer
accounts on its behalf, and not more than amount and fee. -/
theorem conservation (env : Env) (hfees : env.cfg.FeesNonneg) (htotals : env.cfg.TotalsNonneg)
    (w₀ : World) (id : Uuid) (hnew : w₀.db.transfers.lookup id = none)
    (tr : List (Step World Call)) (w : World)
    (hseq : Sequence env (fun c => c.isEdit = false) w₀ tr w)
    (hrespects : ∀ x ∈ tr, RespectsClosed id x) (t : Transfer)
    (ht : w.db.transfers.lookup id = some t) (hkind : isInflow t.kind = false) :
    addedFor id tr ≤ t.amountCents + t.feeCents ∧ AtMostOnce (AddsFor id) tr := by
  have hconserved := (sequence_conserved hfees htotals hnew hseq hrespects).2 t ht hkind
  refine ⟨?_, hconserved.once⟩
  rcases hconserved.spent with hu | ⟨-, hle⟩
  · rw [hu.2]
    have hamount := hconserved.amount
    have hfee := hconserved.fee
    omega
  · exact hle

/-- A payment of 20.00 to Bob, delivered. -/
def sampleDelivery : List Call :=
  [.initiate (samplePay .p2p 20 100 2000 false), .process (sampleSettle 100 200)]

/-- The row of the payment, delivered. -/
def sampleDelivered : Transfer :=
  stampSettled (sampleSettle 100 200)
    (newTransfer sampleEnv (samplePay .p2p 20 100 2000 false) 2000 0 none)

theorem conservation_delivery :
    (oneAtATime sampleEnv sampleWorld sampleDelivery).2.db.balance 20 = 2000 ∧
      addedFor 100 (oneAtATime sampleEnv sampleWorld sampleDelivery).1 ≤ 2000 ∧
      AtMostOnce (AddsFor 100) (oneAtATime sampleEnv sampleWorld sampleDelivery).1 := by
  have hcalls : ∀ c ∈ sampleDelivery, c.isEdit = false := by
    simp [sampleDelivery, Call.isEdit]
  have hconserved := conservation sampleEnv (feesNonneg_of_feeMin (by decide))
    (totalsNonneg_of_min (by decide) (by decide)) sampleWorld 100 rfl _ _
    (oneAtATime_sequence sampleDelivery hcalls) (by decide +kernel) sampleDelivered
    (by decide +kernel) rfl
  exact ⟨by decide +kernel, hconserved⟩

/-- A payment of 20.00 to Bob is delivered, and delivered again after `forceSettle` has made it
pending: 40.00 are added for 20.00 taken. -/
theorem delivered_twice :
    ¬ ∀ (env : Env), env.cfg.FeesNonneg → env.cfg.TotalsNonneg → ∀ (w₀ : World) (id : Uuid),
        w₀.db.transfers.lookup id = none → ∀ (tr : List (Step World Call)) (w : World),
        Sequence env (fun c => c.isEdit = false) w₀ tr w → ∀ t,
        w.db.transfers.lookup id = some t → isInflow t.kind = false →
        addedFor id tr ≤ t.amountCents + t.feeCents := by
  intro h
  have hcalls : ∀ c ∈ sampleDelivery ++ [.forceSettle (sampleForce 100 300)],
      c.isEdit = false := by
    simp [sampleDelivery, Call.isEdit]
  have hle := h sampleEnv (feesNonneg_of_feeMin (by decide))
    (totalsNonneg_of_min (by decide) (by decide)) sampleWorld 100 rfl _ _
    (oneAtATime_sequence _ hcalls) (stampSettled (sampleSettle 100 300)
      (newTransfer sampleEnv (samplePay .p2p 20 100 2000 false) 2000 0 none))
    (by decide +kernel) rfl
  revert hle
  decide +kernel

end BankDemo
