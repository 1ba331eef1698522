import BankDemo.System.Atomic

/-!
# Balances and displayed amounts

An admin's edit moves the balance of an account by the change of what its feed displays. So the
balance stays at a fixed distance from the sum of the displayed amounts (`Consistent`), whatever
is created, patched, hidden, shifted, cleared and deleted.

There is one exception. `patch` takes an override of zero for no override at all when it computes
the change (`patchDelta`), so a patch of a transaction whose displayed amount was set to zero
before moves the balance from the raw amount instead of from zero. `overrides_keep_balance` says
that this is all: every sequence of edits without such a patch is consistent.
-/

namespace BankDemo

open Ledger Transfers Admin

/-! ## Displayed amounts -/

/-- The amount a transaction is displayed with. -/
def Db.displayed (db : Db) (id : Uuid) (row : Transaction) : ℤ :=
  ((db.overrides.lookup id).bind TransactionOverride.overrideAmountCents).getD row.amountCents

/-- The sum of the displayed amounts of the transactions of an account. -/
def Db.displayedSum (db : Db) (a : Uuid) : ℤ :=
  db.transactions.sum fun id row => if row.accountId = a then db.displayed id row else 0

theorem findWithOverride_some {id : Uuid} {db : Db} {t : TransactionWithOverride}
    (h : findWithOverride id db = some t) :
    db.transactions.lookup id = some t.row ∧ t.override = db.overrides.lookup id := by
  unfold findWithOverride at h
  cases hrow : db.transactions.lookup id with
  | none => simp [hrow] at h
  | some row =>
    cases hacct : db.accounts.lookup row.accountId with
    | none => simp [hrow, hacct] at h
    | some acct =>
      simp only [hrow, hacct, Option.bind_eq_bind, Option.bind_some, Option.pure_def,
        Option.some.injEq] at h
      subst h
      exact ⟨rfl, rfl⟩

/-- The displayed amount is that of `effectiveOf`. -/
theorem effectiveOf_amountCents {id : Uuid} {db : Db} {t : TransactionWithOverride}
    (h : findWithOverride id db = some t) :
    (effectiveOf t).amountCents = db.displayed id t.row := by
  simp only [effectiveOf, Db.displayed, (findWithOverride_some h).2]

/-- Every balance is its base and what the feed displays, and overrides are of transactions that
exist, as their foreign key says. -/
structure Consistent (base : Uuid → ℤ) (db : Db) : Prop where
  balance : ∀ a, db.balance a = base a + db.displayedSum a
  overridden : ∀ id, db.transactions.lookup id = none → db.overrides.lookup id = none

/-! ## Edits -/

section Edits

variable {base : Uuid → ℤ} {db db' : Db} {id : Uuid} {row : Transaction}

/-- The override of one transaction changes, and the balance with what is displayed. -/
theorem Consistent.override (h : Consistent base db) (hrow : db.transactions.lookup id = some row)
    (hT : db'.transactions = db.transactions)
    (hO : ∀ id', id' ≠ id → db'.overrides.lookup id' = db.overrides.lookup id')
    (hbalance : ∀ a, db'.balance a = db.balance a +
      if row.accountId = a then db'.displayed id row - db.displayed id row else 0) :
    Consistent base db' := by
  refine ⟨fun a => ?_, fun id' hid' => ?_⟩
  · have hsum : db'.displayedSum a = db.displayedSum a -
        (if row.accountId = a then db.displayed id row else 0) +
        if row.accountId = a then db'.displayed id row else 0 := by
      unfold Db.displayedSum
      rw [hT]
      apply Table.sum_change hrow
      intro id' row' hne
      simp only [Db.displayed, hO id' hne]
    rw [hbalance a, hsum, h.balance a]
    split <;> omega
  · rw [hT] at hid'
    have hne : id' ≠ id := by
      rintro rfl
      rw [hrow] at hid'
      cases hid'
    rw [hO id' hne]
    exact h.overridden id' hid'

/-- A transaction is added, and its amount to the balance. -/
theorem Consistent.create (h : Consistent base db)
    (hT : Table.Created id row db.transactions db'.transactions)
    (hO : db'.overrides = db.overrides)
    (hbalance : ∀ a, db'.balance a = db.balance a +
      if row.accountId = a then row.amountCents else 0) : Consistent base db' := by
  have hnone := h.overridden id hT.1
  refine ⟨fun a => ?_, fun id' hid' => ?_⟩
  · have hsum : db'.displayedSum a =
        (if row.accountId = a then row.amountCents else 0) + db.displayedSum a := by
      unfold Db.displayedSum
      rw [hT.2, Table.sum_insert_new hT.1]
      simp [Db.displayed, hO, hnone]
    rw [hbalance a, hsum, h.balance a]
    split <;> omega
  · rw [hT.lookup] at hid'
    split at hid'
    · cases hid'
    · rw [hO]
      exact h.overridden id' hid'

/-- A transaction is deleted, and what it displayed is taken back. -/
theorem Consistent.delete (h : Consistent base db) (hrow : db.transactions.lookup id = some row)
    (hT : db'.transactions = db.transactions.erase id)
    (hO : ∀ id', id' ≠ id → db'.overrides.lookup id' = db.overrides.lookup id')
    (hnone : db'.overrides.lookup id = none)
    (hbalance : ∀ a, db'.balance a = db.balance a +
      if row.accountId = a then -db.displayed id row else 0) : Consistent base db' := by
  refine ⟨fun a => ?_, fun id' hid' => ?_⟩
  · have hsum : db'.displayedSum a =
        db.displayedSum a - if row.accountId = a then db.displayed id row else 0 := by
      have hsame : db'.displayedSum a = Table.sum (db.transactions.erase id) fun id row =>
          if row.accountId = a then db.displayed id row else 0 := by
        unfold Db.displayedSum
        rw [hT]
        apply Table.sum_congr
        intro id' row' hid'
        have hne : id' ≠ id := by
          rintro rfl
          rw [AList.lookup_erase] at hid'
          cases hid'
        simp only [Db.displayed, hO id' hne]
      rw [hsame, Table.sum_erase hrow]
      rfl
    rw [hbalance a, hsum, h.balance a]
    split <;> omega
  · by_cases hne : id' = id
    · rw [hne, hnone]
    · rw [hT, AList.lookup_erase_ne hne] at hid'
      rw [hO id' hne]
      exact h.overridden id' hid'

end Edits

/-! ## The services -/

/-- The patch computes the change of the balance rightly, unless the override it replaces is of
zero and the transaction is not. -/
theorem patchDelta_eq {dto : PatchDto} {t : TransactionWithOverride}
    (h : t.override.bind TransactionOverride.overrideAmountCents = some 0 →
      t.row.amountCents = 0) :
    patchDelta dto t = patchAmount dto t - (effectiveOf t).amountCents := by
  simp only [patchDelta, effectiveOf]
  cases ho : t.override.bind TransactionOverride.overrideAmountCents with
  | none =>
    simp only [Option.getD_none]
    omega
  | some x =>
    simp only [Option.getD_some]
    split
    · omega
    · rename_i hx
      have hzero := h (by rw [ho, not_not.1 hx])
      omega

/-- What the override of a patch displays. -/
theorem patchOverride_amount (c : EditCall) (dto : PatchDto) (t : TransactionWithOverride)
    (entry : Option ℕ) :
    (patchOverride c dto t.override entry).overrideAmountCents.getD t.row.amountCents =
      patchAmount dto t := by
  simp only [patchOverride, patchAmount]
  cases dto.amountCents <;> rfl

/-- A patch that finds an override of zero on a transaction whose own amount is not zero. -/
def patchesZero (db : Db) : Call → Bool
  | .patch c _ =>
    match findWithOverride c.transactionId db with
    | some t => t.override.bind TransactionOverride.overrideAmountCents = some 0 &&
        t.row.amountCents ≠ 0
    | none => false
  | _ => false

section Services

variable {base : Uuid → ℤ} {env : Env} {i : ℕ} {w : World} {α : Type}

theorem consistent_patch {c : EditCall} {dto : PatchDto} {t : TransactionWithOverride} {db : Db}
    {r : Unit × Db} (h : Consistent base db) (ht : findWithOverride c.transactionId db = some t)
    (hzero : t.override.bind TransactionOverride.overrideAmountCents = some 0 →
      t.row.amountCents = 0) (hr : patchTx c dto t db = .ok r) : Consistent base r.2 := by
  obtain ⟨hT, entry, hO⟩ := patchTx_feed hr
  have hdisplayed : r.2.displayed c.transactionId t.row = patchAmount dto t := by
    rw [← patchOverride_amount c dto t entry, Db.displayed, hO, AList.lookup_insert]
    rfl
  refine h.override (findWithOverride_some ht).1 hT (fun id' hne => ?_) fun a => ?_
  · rw [hO, AList.lookup_insert_ne hne]
  · rw [(patchTx_ok hr).balance, patchDelta_eq hzero, hdisplayed, effectiveOf_amountCents ht]

theorem consistent_create {c : EditCall} {dto : CreateDto} {account : Account} {amount : ℤ}
    {db : Db} {r : Unit × Db} (h : Consistent base db)
    (hr : createTx c dto account amount db = .ok r) : Consistent base r.2 := by
  obtain ⟨hT, hO⟩ := createTx_feed hr
  exact h.create hT hO fun a => (createTx_ok hr).balance a

theorem consistent_delete {c : EditCall} {t : TransactionWithOverride} {db : Db} {r : Unit × Db}
    (h : Consistent base db) (ht : findWithOverride c.transactionId db = some t)
    (hr : deleteTx c t db = .ok r) : Consistent base r.2 := by
  obtain ⟨hT, hO, hnone⟩ := deleteTx_feed hr
  refine h.delete (findWithOverride_some ht).1 hT (fun id' hne => ?_) hnone fun a => ?_
  · rcases hO with hO | hO
    · rw [hO, AList.lookup_erase_ne hne]
    · rw [hO]
  · rw [(deleteTx_ok hr).balance, effectiveOf_amountCents ht]

theorem consistent_clear {c : EditCall} {t : TransactionWithOverride} {db : Db} {r : Unit × Db}
    (h : Consistent base db) (ht : findWithOverride c.transactionId db = some t)
    (hr : clearTx c t db = .ok r) : Consistent base r.2 := by
  obtain ⟨hT, hO⟩ := clearTx_feed hr
  obtain ⟨hrow, hover⟩ := findWithOverride_some ht
  have hdelta : -overrideDelta t =
      r.2.displayed c.transactionId t.row - db.displayed c.transactionId t.row := by
    simp only [overrideDelta, Db.displayed, hO, AList.lookup_erase, ← hover]
    cases t.override.bind TransactionOverride.overrideAmountCents with
    | none => simp
    | some x =>
      simp only [Option.bind_none, Option.getD_none, Option.getD_some]
      omega
  refine h.override hrow hT (fun id' hne => ?_) fun a => ?_
  · rw [hO, AList.lookup_erase_ne hne]
  · rw [(clearTx_ok hr).balance, hdelta]

/-- An upsert that leaves the amount of the override alone. -/
theorem consistent_upsert {id : Uuid} {t : TransactionWithOverride}
    {set : TransactionOverride → TransactionOverride} {o : TransactionOverride} {db : Db}
    {r : Unit × Db} (h : Consistent base db) (ht : findWithOverride id db = some t)
    (hr : Tx.upsertOverride id set o db = .ok r)
    (hset : ∀ o, (set o).overrideAmountCents = o.overrideAmountCents)
    (ho : o.overrideAmountCents = none) : Consistent base r.2 := by
  have hrow := Tx.upsertOverride_row hr
  have hdisplayed : r.2.displayed id t.row = db.displayed id t.row := by
    simp only [Db.displayed, hrow, AList.lookup_insert, Option.bind_some]
    cases db.overrides.lookup id with
    | none => simp [ho]
    | some o' => simp [hset]
  refine h.override (findWithOverride_some ht).1 (by rw [hrow]) (fun id' hne => ?_) fun a => ?_
  · rw [hrow]
    exact AList.lookup_insert_ne hne
  · rw [hdisplayed, hrow]
    simp [Db.balance]

/-! Each edit as one step. -/

theorem leaves_readTransaction {id : Uuid} {e : Error} {k : TransactionWithOverride → Service α}
    {E : Db → Prop} (hE : E w.db)
    (hk : ∀ t, findWithOverride id w.db = some t → Leaves w (k t) E) :
    Leaves w (readTransaction id e >>= k) E := by
  unfold Leaves at hk ⊢
  simp only [readTransaction, query, Prog.run_bind, Prog.run_read]
  cases ht : findWithOverride id w.db with
  | none => exact hE
  | some t => exact hk t ht

theorem patch_leaves {c : EditCall} {dto : PatchDto} (h : Consistent base w.db)
    (hzero : patchesZero w.db (.patch c dto) = false) :
    Leaves w (patch env i c dto) (Consistent base) := by
  refine Quiet.leaves_bind (quiet_assertRate _ _ _) h fun _ w₁ hw₁ => ?_
  rw [← hw₁] at h hzero
  refine leaves_readTransaction h fun t ht => ?_
  refine Quiet.leaves_bind (quiet_checkPatch _ _ _) h fun _ w₂ hw₂ => ?_
  rw [← hw₂] at h hzero ht
  refine Leaves.bind_quiet (leaves_transaction (fun _ _ => h) fun r hr => ?_) fun _ => ?_
  · refine consistent_patch h ht (fun ho => ?_) hr
    simp only [patchesZero, ht, ho, decide_true, Bool.true_and, decide_eq_false_iff_not,
      not_not] at hzero
    exact hzero
  · refine quiet_bind (quiet_readTransaction _ _) fun fresh => ?_
    refine quiet_bind (quiet_emitTxUpdated _ _ _) fun _ => ?_
    exact quiet_bind (quiet_emitBalanceIf _ _) fun _ => quiet_pure _

theorem create_leaves {c : EditCall} {dto : CreateDto} (h : Consistent base w.db) :
    Leaves w (create env i c dto) (Consistent base) := by
  refine Quiet.leaves_bind (quiet_assertRate _ _ _) h fun _ w₁ hw₁ => ?_
  rw [← hw₁] at h
  refine leaves_query ?_
  cases w₁.db.accounts.lookup dto.accountId with
  | none => exact (quiet_throw _).leaves h
  | some account =>
    simp only [createOn]
    cases dto.amountCents with
    | none => exact (quiet_throw _).leaves h
    | some amount =>
      simp only
      split
      · exact (quiet_throw _).leaves h
      · refine Quiet.leaves_bind (quiet_checkCreate _ _ _) h fun _ w₂ hw₂ => ?_
        rw [← hw₂] at h
        refine Leaves.bind_quiet (leaves_transaction (fun _ _ => h) fun r hr => ?_) fun _ => ?_
        · exact consistent_create h hr
        · refine quiet_bind (quiet_emit _) fun _ => quiet_bind (quiet_emitBalance _) fun _ => ?_
          exact quiet_bind (quiet_readTransaction _ _) fun _ => quiet_pure _

theorem delete_leaves {c : EditCall} (h : Consistent base w.db) :
    Leaves w (delete env i c) (Consistent base) := by
  refine Quiet.leaves_bind (quiet_assertRate _ _ _) h fun _ w₁ hw₁ => ?_
  rw [← hw₁] at h
  refine leaves_readTransaction h fun t ht => ?_
  refine Leaves.bind_quiet (leaves_transaction (fun _ _ => h) fun r hr => ?_) fun _ => ?_
  · exact consistent_delete h ht hr
  · exact quiet_bind (quiet_emit _) fun _ => quiet_emitBalanceIf _ _

theorem hide_leaves {c : EditCall} (h : Consistent base w.db) :
    Leaves w (hide env i c) (Consistent base) := by
  refine Quiet.leaves_bind (quiet_assertRate _ _ _) h fun _ w₁ hw₁ => ?_
  rw [← hw₁] at h
  refine leaves_readTransaction h fun t ht => ?_
  refine Leaves.bind_quiet (leaves_transaction (fun _ _ => h) fun r hr => ?_) fun _ => ?_
  · exact consistent_upsert h ht hr (fun _ => rfl) rfl
  · exact quiet_bind (quiet_readTransaction _ _) fun _ => quiet_emitTxUpdated _ _ _

theorem clearOverride_leaves {c : EditCall} (h : Consistent base w.db) :
    Leaves w (clearOverride i c) (Consistent base) := by
  refine leaves_readTransaction h fun t ht => ?_
  split
  · exact (quiet_throw _).leaves h
  · refine Leaves.bind_quiet (leaves_transaction (fun _ _ => h) fun r hr => ?_) fun _ => ?_
    · exact consistent_clear h ht hr
    · refine quiet_bind (quiet_readTransaction _ _) fun fresh => ?_
      exact quiet_bind (quiet_emitTxUpdated _ _ _) fun _ => quiet_emitBalanceIf _ _

theorem shiftOne_leaves {c : EditCall} {days : ℤ} {id : Uuid} (h : Consistent base w.db) :
    Leaves w (shiftOne i c days id) (Consistent base) := by
  refine leaves_query ?_
  cases ht : findWithOverride id w.db with
  | none => exact (quiet_pure _).leaves h
  | some t =>
    refine Leaves.bind_quiet (leaves_transaction (fun _ _ => h) fun r hr => ?_) fun _ => ?_
    · exact consistent_upsert h ht hr (fun _ => rfl) rfl
    · refine quiet_bind (quiet_readTransaction _ _) fun fresh => ?_
      exact quiet_bind (quiet_emitTxUpdated _ _ _) fun _ => quiet_pure _

theorem shiftAll_leaves {c : EditCall} {days : ℤ} {ids : List Uuid} (h : Consistent base w.db) :
    Leaves w (shiftAll i c days ids) (Consistent base) := by
  induction ids generalizing w with
  | nil => exact (quiet_pure _).leaves h
  | cons id ids ih =>
    refine leaves_bind ?_
    have hone : Leaves w (shiftOne i c days id) (Consistent base) := shiftOne_leaves h
    refine ⟨hone, fun n w' hw' => Leaves.bind_quiet (ih ?_) fun _ => quiet_pure _⟩
    rw [hw']
    exact hone

theorem bulkShift_leaves {superadmin : Bool} {c : EditCall} {ids : List Uuid} {days : ℤ}
    (h : Consistent base w.db) :
    Leaves w (bulkShift i superadmin c ids days) (Consistent base) := by
  unfold bulkShift
  split
  · exact (quiet_throw _).leaves h
  · split
    · exact (quiet_throw _).leaves h
    · exact shiftAll_leaves h

/-- **An edit as one step** keeps balances and displayed amounts together. -/
theorem edit_leaves {c : Call} (hc : c.isEdit = true) (h : Consistent base w.db)
    (hzero : patchesZero w.db c = false) : Leaves w (program env i c) (Consistent base) := by
  cases c with
  | patch c dto => exact (patch_leaves h hzero).bind_quiet fun _ => quiet_pure _
  | create c dto => exact (create_leaves h).bind_quiet fun _ => quiet_pure _
  | delete c => exact (delete_leaves h).bind_quiet fun _ => quiet_pure _
  | hide c => exact (hide_leaves h).bind_quiet fun _ => quiet_pure _
  | clearOverride c => exact (clearOverride_leaves h).bind_quiet fun _ => quiet_pure _
  | bulkShift _ c ids days => exact (bulkShift_leaves h).bind_quiet fun _ => quiet_pure _
  | _ => cases hc

/-! ## Patching one transaction -/

/-- Only the override of `id` differs. -/
def SameFeed (id : Uuid) (db₀ db : Db) : Prop :=
  db.transactions = db₀.transactions ∧
    ∀ id', id' ≠ id → db.overrides.lookup id' = db₀.overrides.lookup id'

/-- The call patches `id` or clears its override. -/
def Call.overrides (id : Uuid) : Call → Bool
  | .patch c _ => c.transactionId = id
  | .clearOverride c => c.transactionId = id
  | _ => false

theorem patch_sameFeed {c : EditCall} {dto : PatchDto} {db₀ : Db}
    (h : SameFeed c.transactionId db₀ w.db) :
    Leaves w (patch env i c dto) (SameFeed c.transactionId db₀) := by
  refine Quiet.leaves_bind (quiet_assertRate _ _ _) h fun _ w₁ hw₁ => ?_
  rw [← hw₁] at h
  refine leaves_readTransaction h fun t ht => ?_
  refine Quiet.leaves_bind (quiet_checkPatch _ _ _) h fun _ w₂ hw₂ => ?_
  rw [← hw₂] at h
  refine Leaves.bind_quiet (leaves_transaction (fun _ _ => h) fun r hr => ?_) fun _ => ?_
  · obtain ⟨hT, entry, hO⟩ := patchTx_feed hr
    refine ⟨hT.trans h.1, fun id' hne => ?_⟩
    rw [hO, AList.lookup_insert_ne hne, h.2 id' hne]
  · refine quiet_bind (quiet_readTransaction _ _) fun fresh => ?_
    refine quiet_bind (quiet_emitTxUpdated _ _ _) fun _ => ?_
    exact quiet_bind (quiet_emitBalanceIf _ _) fun _ => quiet_pure _

theorem clearOverride_sameFeed {c : EditCall} {db₀ : Db}
    (h : SameFeed c.transactionId db₀ w.db) :
    Leaves w (clearOverride i c) (SameFeed c.transactionId db₀) := by
  refine leaves_readTransaction h fun t ht => ?_
  split
  · exact (quiet_throw _).leaves h
  · refine Leaves.bind_quiet (leaves_transaction (fun _ _ => h) fun r hr => ?_) fun _ => ?_
    · obtain ⟨hT, hO⟩ := clearTx_feed hr
      refine ⟨hT.trans h.1, fun id' hne => ?_⟩
      rw [hO, AList.lookup_erase_ne hne, h.2 id' hne]
    · refine quiet_bind (quiet_readTransaction _ _) fun fresh => ?_
      exact quiet_bind (quiet_emitTxUpdated _ _ _) fun _ => quiet_emitBalanceIf _ _

theorem overrides_sameFeed {c : Call} {id : Uuid} {db₀ : Db} (hc : c.overrides id = true)
    (h : SameFeed id db₀ w.db) : Leaves w (program env i c) (SameFeed id db₀) := by
  cases c with
  | patch c dto =>
    obtain rfl := of_decide_eq_true hc
    exact (patch_sameFeed h).bind_quiet fun _ => quiet_pure _
  | clearOverride c =>
    obtain rfl := of_decide_eq_true hc
    exact (clearOverride_sameFeed h).bind_quiet fun _ => quiet_pure _
  | _ => cases hc

theorem sequence_sameFeed {ok : Call → Prop} {w₀ : World} {tr : List (Step World Call)} {id : Uuid}
    (hseq : Sequence env ok w₀ tr w) (hcalls : ∀ x ∈ tr, x.call.overrides id = true) :
    SameFeed id w₀.db w.db := by
  induction hseq with
  | start => exact ⟨rfl, fun _ _ => rfl⟩
  | call _ _ ih =>
    have hbefore := ih fun x hx => hcalls x (List.mem_cons_of_mem _ hx)
    exact overrides_sameFeed (hcalls _ List.mem_cons_self) hbefore

/-- The feed displays the same once the override is gone. -/
theorem SameFeed.displayedSum {id : Uuid} {db₀ db : Db} (h : SameFeed id db₀ db)
    (hid : db.overrides.lookup id = db₀.overrides.lookup id) (a : Uuid) :
    db.displayedSum a = db₀.displayedSum a := by
  unfold Db.displayedSum
  rw [h.1]
  apply Table.sum_congr
  intro id' row _
  have hlookup : db.overrides.lookup id' = db₀.overrides.lookup id' := by
    by_cases hne : id' = id
    · rw [hne, hid]
    · exact h.2 id' hne
  simp only [Db.displayed, hlookup]

end Services

theorem sequence_consistent {env : Env} {w₀ w : World} {base : Uuid → ℤ}
    {tr : List (Step World Call)} (hstart : Consistent base w₀.db)
    (hseq : Sequence env (fun c => c.isEdit = true) w₀ tr w)
    (hzero : ∀ x ∈ tr, patchesZero x.pre.db x.call = false) : Consistent base w.db := by
  induction hseq with
  | start => exact hstart
  | call _ hc ih =>
    have hbefore := ih fun x hx => hzero x (List.mem_cons_of_mem _ hx)
    exact edit_leaves hc hbefore (hzero _ List.mem_cons_self)

/-- **Overrides keep the balance.** In every sequence of edits without a patch of a zero override,
the balance of every account is where it started plus the change of what its feed displays. So
patches of a transaction, once its override is cleared, have left every balance as it was. -/
theorem overrides_keep_balance (env : Env) (w₀ : World)
    (hoverridden : ∀ id, w₀.db.transactions.lookup id = none → w₀.db.overrides.lookup id = none)
    (tr : List (Step World Call)) (w : World)
    (hseq : Sequence env (fun c => c.isEdit = true) w₀ tr w)
    (hzero : ∀ x ∈ tr, patchesZero x.pre.db x.call = false) :
    (∀ a, w.db.balance a = (w₀.db.balance a - w₀.db.displayedSum a) + w.db.displayedSum a) ∧
      ∀ id, (∀ x ∈ tr, x.call.overrides id = true) → w₀.db.overrides.lookup id = none →
        w.db.overrides.lookup id = none → ∀ a, w.db.balance a = w₀.db.balance a := by
  have hstart : Consistent (fun a => w₀.db.balance a - w₀.db.displayedSum a) w₀.db :=
    ⟨fun a => by omega, hoverridden⟩
  have hconsistent := sequence_consistent hstart hseq hzero
  refine ⟨hconsistent.balance, fun id hcalls hbefore hafter a => ?_⟩
  have hsame := (sequence_sameFeed hseq hcalls).displayedSum (hafter.trans hbefore.symm) a
  have hbalance := hconsistent.balance a
  omega

/-- An edit of transaction 50 on Ann's account. -/
def sampleEdit : EditCall := ⟨9, 50, "correction", 0⟩

/-- A purchase of 10.00. -/
def samplePurchase : CreateDto where
  accountId := 10
  amountCents := some (-1000)
  occurredAt := 0
  description := "Coffee"
  category := .dining
  status := .posted
  kind := some .cardPurchase
  forceAllowNegative := false

/-- A patch to another amount. -/
def sampleAmount (amountCents : ℤ) : PatchDto := ⟨some amountCents, none, none, none, none, false⟩

/-- A purchase is created, patched twice, hidden, and its override cleared. -/
def sampleEdits : List Call :=
  [.create sampleEdit samplePurchase, .patch sampleEdit (sampleAmount (-2500)),
    .patch sampleEdit (sampleAmount 400), .hide sampleEdit, .clearOverride sampleEdit]

theorem overrides_keep_balance_edits :
    (oneAtATime sampleEnv sampleWorld sampleEdits).2.db.balance 10 = 499000 ∧
      (oneAtATime sampleEnv sampleWorld sampleEdits).2.db.balance 10 = (500000 - 0) +
        (oneAtATime sampleEnv sampleWorld sampleEdits).2.db.displayedSum 10 :=
  ⟨by decide +kernel, (overrides_keep_balance sampleEnv sampleWorld (fun _ _ => rfl) _ _
    (oneAtATime_sequence sampleEdits (by decide)) (by decide +kernel)).1 10⟩

/-- The purchase is patched to nothing and then to 5.00. -/
def sampleZeroed : List Call :=
  [.create sampleEdit samplePurchase, .patch sampleEdit (sampleAmount 0),
    .patch sampleEdit (sampleAmount (-500))]

/-- The second patch moves the balance from the raw amount, and Ann is 10.00 up. -/
theorem zero_override_patched :
    ¬ ∀ (env : Env) (w₀ : World),
        (∀ id, w₀.db.transactions.lookup id = none → w₀.db.overrides.lookup id = none) →
        ∀ (tr : List (Step World Call)) (w : World),
        Sequence env (fun c => c.isEdit = true) w₀ tr w →
        ∀ a, w.db.balance a = (w₀.db.balance a - w₀.db.displayedSum a) + w.db.displayedSum a := by
  intro h
  have hlast := h sampleEnv sampleWorld (fun _ _ => rfl) _ _
    (oneAtATime_sequence sampleZeroed (by decide)) 10
  revert hlast
  decide +kernel

end BankDemo
