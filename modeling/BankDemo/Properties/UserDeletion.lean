import BankDemo.Admin.Users
import BankDemo.Properties.Books

/-!
# Deleting a user and other users' money

A payment that is not settled yet is debited and held for its recipient. Deleting the recipient
deletes every transfer to the recipient's accounts, whoever it is from, and returns nothing
(`payment_lost_with_recipient`).

* `deletion_keeps_money_iff`: for another user's account, the balance together with what is held in
  its pending transfers is the same after a deletion exactly when none of these goes to an account
  of the user deleted.
-/

namespace BankDemo

open Ledger Transfers Admin

/-- What a pending transfer holds of the money of account `a`. -/
def heldFrom (a : Uuid) (t : Transfer) : ℤ :=
  if t.status = .pending ∧ t.fromAccountId = a then t.amountCents + t.feeCents else 0

/-- What was debited from an account and is neither delivered nor returned. -/
def Db.held (db : Db) (a : Uuid) : ℤ := db.transfers.total (heldFrom a)

/-- No pending transfer from `a` goes to an account of the user. -/
def NonePendingTo (db : Db) (a userId : Uuid) : Prop :=
  ∀ id t, db.transfers.lookup id = some t → t.status = .pending → t.fromAccountId = a →
    ∀ b, t.toAccountId = some b → b ∉ accountsOf userId db

/-- An accepted deletion has run its transaction on the accounts it found. -/
theorem hardDelete_run {toLowerCase : String → String} {me : ℕ} {c : HardDeleteCall} {w w' : World}
    {counts : DeletedCounts} (h : (hardDelete toLowerCase me c).run w = (.ok counts, w')) :
    ∃ email, hardDeleteTx c.targetUserId email (accountsOf c.targetUserId w.db) w.db =
      .ok (counts, w'.db) := by
  have hdeletes := hardDelete_deletes toLowerCase me c w
  unfold Prog.Ensures at hdeletes
  rw [h] at hdeletes
  obtain ⟨target, db, -, -, hw, htx⟩ := hdeletes
  cases hw
  exact ⟨target.email, htx⟩

section Deletion

variable {db db' : Db} {userId a : Uuid}

/-- The account of another user stays, with its balance. -/
theorem balance_after_deletion
    (haccounts : db'.accounts = db.accounts.deleteMany fun _ acct => acct.userId = userId)
    {acct : Account} (hacct : db.accounts.lookup a = some acct) (howner : acct.userId ≠ userId) :
    db'.balance a = db.balance a := by
  have hstays : db'.accounts.lookup a = some acct := by
    rw [haccounts, Table.lookup_deleteMany]
    exact ⟨hacct, by simpa using howner⟩
  rw [Db.balance, hstays, Db.balance, hacct]

/-- What was held in the transfers deleted is not held any more. -/
theorem held_after_deletion
    (htransfers : db'.transfers = db.transfers.deleteMany fun _ t =>
      touches (accountsOf userId db) t) :
    db.held a - db'.held a = db.transfers.sum fun _ t =>
      if touches (accountsOf userId db) t then heldFrom a t else 0 := by
  have hdeleted := Table.sum_deleteMany db.transfers (fun _ t => touches (accountsOf userId db) t)
    fun _ t => heldFrom a t
  have hbefore : db.held a = db.transfers.sum fun _ t => heldFrom a t := rfl
  have hafter : db'.held a = (db.transfers.deleteMany fun _ t =>
      touches (accountsOf userId db) t).sum fun _ t => heldFrom a t := by
    rw [← htransfers]
    rfl
  rw [hbefore, hafter, hdeleted, ← Table.sum_sub]
  refine Table.sum_congr fun id t _ => ?_
  split
  · omega
  · omega

theorem heldFrom_nonneg {t : Transfer} (hamount : 0 < t.amountCents) (hfee : 0 ≤ t.feeCents) :
    0 ≤ heldFrom a t := by
  unfold heldFrom
  split
  · omega
  · exact le_refl 0

/-- A deletion takes nothing of what is held exactly when no pending transfer goes to the user. -/
theorem held_unchanged_iff
    (htransfers : db'.transfers = db.transfers.deleteMany fun _ t =>
      touches (accountsOf userId db) t)
    (hamounts : ∀ id t, db.transfers.lookup id = some t → 0 < t.amountCents ∧ 0 ≤ t.feeCents)
    {acct : Account} (hacct : db.accounts.lookup a = some acct) (howner : acct.userId ≠ userId) :
    db'.held a = db.held a ↔ NonePendingTo db a userId := by
  have hloss := held_after_deletion (a := a) htransfers
  have hnonneg : ∀ id t, db.transfers.lookup id = some t →
      0 ≤ if touches (accountsOf userId db) t then heldFrom a t else 0 := by
    intro id t ht
    obtain ⟨hamount, hfee⟩ := hamounts id t ht
    split
    · exact heldFrom_nonneg hamount hfee
    · exact le_refl 0
  have hzero : db'.held a = db.held a ↔ (db.transfers.sum fun _ t =>
      if touches (accountsOf userId db) t then heldFrom a t else 0) = 0 := by
    omega
  -- the account itself is not one of the user's
  have hother : a ∉ accountsOf userId db := by
    intro hmem
    obtain ⟨acct', hacct', howner'⟩ := mem_accountsOf.1 hmem
    obtain rfl := Option.some.inj (hacct.symm.trans hacct')
    exact howner howner'
  rw [hzero, Table.sum_eq_zero_iff hnonneg]
  constructor
  · intro hall id t ht hpending hfrom b hb hmem
    have htouches : touches (accountsOf userId db) t = true := by
      simp [touches, hb, hmem]
    have hheld := hall id t ht
    obtain ⟨hamount, hfee⟩ := hamounts id t ht
    rw [if_pos htouches, heldFrom, if_pos ⟨hpending, hfrom⟩] at hheld
    omega
  · intro hnone id t ht
    split
    · rename_i htouches
      rw [heldFrom, if_neg]
      rintro ⟨hpending, hfrom⟩
      simp only [touches, Bool.or_eq_true, decide_eq_true_eq, Option.any_eq_true] at htouches
      rcases htouches with hmem | ⟨b, hb, hmem⟩
      · rw [hfrom] at hmem
        exact hother hmem
      · exact hnone id t ht hpending hfrom b hb hmem
    · rfl

end Deletion

/-- **Deleting a user and other users' money.** In every state that the calls of the system reach,
with amounts of one cent at least and no negative fees, a deletion of `target` that is accepted
leaves the balance of another user's account together with what its pending transfers hold as it
was exactly when no pending transfer from the account goes to an account of `target`. -/
theorem deletion_keeps_money_iff (env : Env) (hmin : 1 ≤ env.cfg.minCents)
    (hfees : env.cfg.FeesNonneg) (w₀ : World)
    (hstart : ∀ id t, w₀.db.transfers.lookup id = some t → 0 < t.amountCents ∧ 0 ≤ t.feeCents)
    (tr : List (Step World Call)) (P : Pool World Error Answer Call)
    (hrun : Run (program env) (fun _ => True) w₀ tr P) (toLowerCase : String → String) (me : ℕ)
    (c : HardDeleteCall) (counts : DeletedCounts) (w : World)
    (hdelete : (hardDelete toLowerCase me c).run P.state = (.ok counts, w)) (v : Uuid)
    (hv : v ≠ c.targetUserId) (a : Uuid) (acct : Account)
    (hacct : P.state.db.accounts.lookup a = some acct) (howner : acct.userId = v) :
    w.db.balance a + w.db.held a = P.state.db.balance a + P.state.db.held a ↔
      NonePendingTo P.state.db a c.targetUserId := by
  have hamounts := amounts_pos hrun.steps hmin fun id t ht => (hstart id t ht).1
  have hnonneg := fees_nonneg hrun.steps hfees fun id t ht => (hstart id t ht).2
  obtain ⟨past, hpast⟩ := hrun.visited_eq
  have hstate : P.state ∈ visited w₀ tr := by
    rw [hpast]
    exact List.mem_cons_self
  obtain ⟨email, htx⟩ := hardDelete_run hdelete
  obtain ⟨haccounts, htransfers, -⟩ := hardDeleteTx_ok htx
  simp only at haccounts htransfers
  have hother : acct.userId ≠ c.targetUserId := by
    rw [howner]
    exact hv
  rw [balance_after_deletion haccounts hacct hother,
    ← held_unchanged_iff htransfers (fun id t ht => ⟨hamounts id t ⟨_, hstate, ht⟩,
      hnonneg id t ⟨_, hstate, ht⟩⟩) hacct hother]
  omega

/-- An admin deletes Bob. -/
def sampleDeletion : HardDeleteCall := ⟨9, .admin, 2, "bob@example.org ", "closed"⟩

/-- The bank after Bob is deleted. -/
def withoutBob (w : World) : Except Error DeletedCounts × World :=
  (hardDelete (fun s => String.ofList (s.toList.map Char.toLower)) 0 sampleDeletion).run w

theorem accepted_of_toBool {α : Type} {r : Except Error α × World} (h : r.1.toBool = true) :
    ∃ a, r = (.ok a, r.2) := by
  obtain ⟨x, w⟩ := r
  cases x with
  | error e => cases h
  | ok a => exact ⟨a, rfl⟩

/-- Bob is deleted after Ann's payment to him has settled: her money is as it was. -/
theorem deletion_keeps_money_settled :
    (withoutBob (exec (program sampleEnv) sampleWorld samplePayment).2.state).1.toBool = true ∧
      (withoutBob (exec (program sampleEnv) sampleWorld samplePayment).2.state).2.db.balance 10 +
          (withoutBob (exec (program sampleEnv) sampleWorld samplePayment).2.state).2.db.held 10 =
        (exec (program sampleEnv) sampleWorld samplePayment).2.state.db.balance 10 +
          (exec (program sampleEnv) sampleWorld samplePayment).2.state.db.held 10 := by
  have haccepted : (withoutBob
      (exec (program sampleEnv) sampleWorld samplePayment).2.state).1.toBool = true := by
    decide +kernel
  have hacct :
      ((exec (program sampleEnv) sampleWorld samplePayment).2.state.db.accounts.lookup 10) =
      some ⟨1, .checking, "Checking", 498000, .active⟩ := by
    decide +kernel
  have hnone : (exec (program sampleEnv) sampleWorld samplePayment).2.state.db.transfers.entries.all
      fun e => e.2.status ≠ .pending := by
    decide +kernel
  obtain ⟨counts, hcounts⟩ := accepted_of_toBool haccepted
  refine ⟨haccepted, (deletion_keeps_money_iff sampleEnv (by decide)
    (feesNonneg_of_feeMin (by decide)) sampleWorld
    (fun id t ht => absurd ht (sample_no_transfers id t)) _ _
    (exec_run samplePayment fun _ _ => trivial) _ 0 sampleDeletion counts _ hcounts 1 (by decide)
    10 _ hacct rfl).2 fun id t ht hpending => ?_⟩
  have hstatus := List.all_eq_true.1 hnone ⟨id, t⟩ (Table.mem_entries_iff.2 ht)
  exact absurd hpending (of_decide_eq_true hstatus)

/-- A payment of 20.00 from Ann to Bob that has not settled. -/
def sampleUnsettled : List (Choice Call) := oneByOne [.initiate (samplePay .p2p 20 100 2000 false)]

/-- Bob is deleted while Ann's payment to him is pending: her 20.00 are gone. -/
theorem payment_lost_with_recipient :
    ¬ ∀ (env : Env), 1 ≤ env.cfg.minCents → env.cfg.FeesNonneg → ∀ (w₀ : World),
        (∀ id, w₀.db.transfers.lookup id = none) →
        ∀ (tr : List (Step World Call)) (P : Pool World Error Answer Call),
        Run (program env) (fun _ => True) w₀ tr P →
        ∀ (toLowerCase : String → String) (me : ℕ) (c : HardDeleteCall) (counts : DeletedCounts)
          (w : World), (hardDelete toLowerCase me c).run P.state = (.ok counts, w) →
        ∀ (v : Uuid), v ≠ c.targetUserId → ∀ (a : Uuid) (acct : Account),
          P.state.db.accounts.lookup a = some acct → acct.userId = v →
          w.db.balance a + w.db.held a = P.state.db.balance a + P.state.db.held a := by
  intro h
  have haccepted : (withoutBob
      (exec (program sampleEnv) sampleWorld sampleUnsettled).2.state).1.toBool = true := by
    decide +kernel
  have hacct :
      ((exec (program sampleEnv) sampleWorld sampleUnsettled).2.state.db.accounts.lookup 10) =
      some ⟨1, .checking, "Checking", 498000, .active⟩ := by
    decide +kernel
  obtain ⟨counts, hcounts⟩ := accepted_of_toBool haccepted
  have hlast := h sampleEnv (by decide) (feesNonneg_of_feeMin (by decide)) sampleWorld
    (fun _ => rfl) _ _ (exec_run sampleUnsettled fun _ _ => trivial) _ 0 sampleDeletion counts _
    hcounts 1 (by decide) 10 _ hacct rfl
  revert hlast
  decide +kernel

end BankDemo
