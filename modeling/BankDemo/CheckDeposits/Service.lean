import BankDemo.System.Calls
import BankDemo.System.Company

/-!
# Check deposits

`CheckDepositsService.approve` credits a deposited check to the customer's account and
`CheckDepositsService.reject` turns it down. Both read the deposit, want it pending, and later write
by its id: the approval in a transaction with the feed and the balance, the rejection as a single
statement. Neither writes a journal entry. The decision e-mail is left out.

Among other calls, a step of theirs is a `DepositChange` (`deposit_follows`): the deposit was seen
pending some time before.
-/

namespace BankDemo.CheckDeposits

open Ledger

/-- A call of `approve`, with the id it draws. -/
structure ApproveDepositCall where
  adminUserId : Uuid
  depositId : Uuid
  transactionId : Uuid
  now : Instant

/-- A call of `reject`. -/
structure RejectDepositCall where
  adminUserId : Uuid
  depositId : Uuid
  reason : String
  now : Instant

/-- The answer to a decision. -/
structure DepositDecision where
  id : Uuid
  status : CheckDepositStatus
  transactionId : Option Uuid
  deriving DecidableEq

/-! ## The service -/

/-- `checkDeposit.update`. -/
def updateCheckDeposit (id : Uuid) (f : CheckDeposit → CheckDeposit) : Tx Unit := fun db =>
  match db.checkDeposits.lookup id with
  | none => .error .recordNotFound
  | some d => .ok ((), { db with checkDeposits := db.checkDeposits.insert id (f d) })

/-- The check that both decisions begin with. -/
def pendingDeposit (id : Uuid) : Service CheckDeposit := do
  let row ← query fun db => db.checkDeposits.lookup id
  match row with
  | none => throw (.notFound "Deposit not found")
  | some d =>
    if d.status ≠ .pending then throw (.conflict s!"Deposit already {d.status.text}") else return d

/-- The row an approval adds to the customer's feed. -/
def depositRow (c : ApproveDepositCall) (d : CheckDeposit) : Transaction where
  accountId := d.accountId
  kind := .deposit
  status := .posted
  amountCents := d.amountCents
  description := "Mobile check deposit"
  category := .income
  note := none
  occurredAt := c.now
  postedAt := some c.now
  metadata := none

/-- The columns an approval sets. -/
def stampDepositApproved (c : ApproveDepositCall) (d : CheckDeposit) : CheckDeposit :=
  { d with
    status := .approved
    decidedAt := some c.now
    decidedByUserId := some c.adminUserId
    transactionId := some c.transactionId }

/-- The columns a rejection sets. -/
def stampDepositRejected (c : RejectDepositCall) (d : CheckDeposit) : CheckDeposit :=
  { d with
    status := .rejected
    decidedAt := some c.now
    decidedByUserId := some c.adminUserId
    decisionReason := some c.reason }

/-- The transaction of an approval, for the deposit as it was read. -/
def approveTx (c : ApproveDepositCall) (d : CheckDeposit) : Tx Unit := do
  Tx.createTransaction c.transactionId (depositRow c d)
  Tx.incrementBalance d.accountId d.amountCents
  updateCheckDeposit c.depositId (stampDepositApproved c)

/-- The events after an approval has committed. -/
def announceDeposit (c : ApproveDepositCall) (d : CheckDeposit) : Service Unit := do
  emit (.transactionCreated d.userId d.accountId c.transactionId d.amountCents .posted)
  let fresh ← query fun db => db.accounts.lookup d.accountId
  match fresh with
  | some a => emit (.accountBalanceChanged d.userId d.accountId a.balanceCents)
  | none => pure ()

/-- `approve` on a deposit that was read as pending. -/
def approvePending (me : ℕ) (c : ApproveDepositCall) (d : CheckDeposit) :
    Service DepositDecision := do
  let account ← query fun db => db.accounts.lookup d.accountId
  match account with
  | none => throw (.notFound "Destination account no longer exists")
  | some _ => do
    transaction me [d.accountId] (approveTx c d)
    announceDeposit c d
    return ⟨c.depositId, .approved, some c.transactionId⟩

/-- `CheckDepositsService.approve`. -/
def approveDeposit (me : ℕ) (c : ApproveDepositCall) : Service DepositDecision := do
  let d ← pendingDeposit c.depositId
  approvePending me c d

/-- `CheckDepositsService.reject`. -/
def rejectDeposit (me : ℕ) (c : RejectDepositCall) : Service DepositDecision := do
  let _ ← pendingDeposit c.depositId
  transaction me [] (updateCheckDeposit c.depositId (stampDepositRejected c))
  return ⟨c.depositId, .rejected, none⟩

/-! ## What the writes did -/

/-- What an approval did. -/
structure DepositApproved (c : ApproveDepositCall) (d : CheckDeposit) (db db' : Db) : Prop where
  balance : Credited d.accountId d.amountCents db db'
  feed : Table.Created c.transactionId (depositRow c d) db.transactions db'.transactions
  deposits : Table.Updated c.depositId (stampDepositApproved c) db.checkDeposits db'.checkDeposits
  others : ∃ A T D, db' = { db with accounts := A, transactions := T, checkDeposits := D }

/-- What a rejection did. -/
structure DepositRejected (c : RejectDepositCall) (db db' : Db) : Prop where
  deposits : Table.Updated c.depositId (stampDepositRejected c) db.checkDeposits db'.checkDeposits
  others : ∃ D, db' = { db with checkDeposits := D }

theorem updateCheckDeposit_ok {id : Uuid} {f : CheckDeposit → CheckDeposit} {db : Db}
    {r : Unit × Db} (h : updateCheckDeposit id f db = .ok r) :
    ∃ d, db.checkDeposits.lookup id = some d ∧
      r.2 = { db with checkDeposits := db.checkDeposits.insert id (f d) } := by
  unfold updateCheckDeposit at h
  split at h
  · cases h
  · rename_i d hd
    cases h
    exact ⟨d, hd, rfl⟩

theorem approveTx_ok {c : ApproveDepositCall} {d : CheckDeposit} {db : Db} {r : Unit × Db}
    (h : approveTx c d db = .ok r) : DepositApproved c d db r.2 := by
  unfold approveTx at h
  obtain ⟨_, db₁, h₁, h⟩ := tx_bind_ok.1 h
  obtain ⟨_, db₂, h₂, h⟩ := tx_bind_ok.1 h
  obtain ⟨hid, hdb₁⟩ := Tx.createTransaction_ok h₁
  obtain ⟨acct, hacct, hdb₂⟩ := Tx.incrementBalance_ok h₂
  obtain ⟨d', hd', hr⟩ := updateCheckDeposit_ok h
  simp only at hdb₁ hdb₂
  subst hdb₁ hdb₂
  rw [hr]
  exact ⟨⟨acct, hacct, rfl⟩, ⟨hid, rfl⟩, ⟨d', hd', rfl⟩, _, _, _, rfl⟩

theorem rejectDeposit_ok {c : RejectDepositCall} {db : Db} {r : Unit × Db}
    (h : updateCheckDeposit c.depositId (stampDepositRejected c) db = .ok r) :
    DepositRejected c db r.2 := by
  obtain ⟨d, hd, hr⟩ := updateCheckDeposit_ok h
  rw [hr]
  exact ⟨⟨d, hd, rfl⟩, _, rfl⟩

theorem quiet_announceDeposit (c : ApproveDepositCall) (d : CheckDeposit) :
    Quiet (announceDeposit c d) := by
  refine quiet_bind (quiet_emit _) fun _ => quiet_bind (quiet_query _) fun fresh => ?_
  cases fresh with
  | none => exact quiet_pure ()
  | some a => exact quiet_emit _

/-! ## Among other calls -/

/-- A decision on a check deposit. -/
inductive DepositCall
  | approve (c : ApproveDepositCall)
  | reject (c : RejectDepositCall)

/-- The deposit a call is about. -/
def DepositCall.depositId : DepositCall → Uuid
  | .approve c => c.depositId
  | .reject c => c.depositId

/-- The program of a call, for thread `me`. -/
def depositProgram (me : ℕ) : DepositCall → Service Answer
  | .approve c => silently (approveDeposit me c)
  | .reject c => silently (rejectDeposit me c)

/-- A row of the deposits table, as it was at some time. -/
def DepositSeen (h : List World) (id : Uuid) (d : CheckDeposit) : Prop :=
  ∃ w ∈ h, w.db.checkDeposits.lookup id = some d

/-- What an action of a call can do to the database, after the worlds `h`. -/
inductive DepositChange (h : List World) (db db' : Db) : DepositCall → Prop
  | quiet {c : DepositCall} (hdb : db' = db) : DepositChange h db db' c
  | approved {c : ApproveDepositCall} {d : CheckDeposit} (hseen : DepositSeen h c.depositId d)
      (hpending : d.status = .pending) (happroved : DepositApproved c d db db') :
      DepositChange h db db' (.approve c)
  | rejected {c : RejectDepositCall} {d : CheckDeposit} (hseen : DepositSeen h c.depositId d)
      (hpending : d.status = .pending) (hrejected : DepositRejected c db db') :
      DepositChange h db db' (.reject c)

theorem DepositChange.transfers {h : List World} {db db' : Db} {c : DepositCall}
    (hchange : DepositChange h db db' c) : db'.transfers = db.transfers := by
  cases hchange with
  | quiet hdb => rw [hdb]
  | approved _ _ happroved =>
    obtain ⟨A, T, D, rfl⟩ := happroved.others
    rfl
  | rejected _ _ hrejected =>
    obtain ⟨D, rfl⟩ := hrejected.others
    rfl

/-- The amount of a deposit does not change. -/
theorem DepositChange.amount {h : List World} {db db' : Db} {c : DepositCall}
    (hchange : DepositChange h db db' c) {id : Uuid} {d : CheckDeposit}
    (hd : db'.checkDeposits.lookup id = some d) :
    ∃ d₀, db.checkDeposits.lookup id = some d₀ ∧ d.amountCents = d₀.amountCents := by
  have hupdated : ∀ {id' : Uuid} {f : CheckDeposit → CheckDeposit},
      Table.Updated id' f db.checkDeposits db'.checkDeposits →
      (∀ d, (f d).amountCents = d.amountCents) →
      ∃ d₀, db.checkDeposits.lookup id = some d₀ ∧ d.amountCents = d₀.amountCents := by
    intro id' f hupdated hf
    rw [hupdated.lookup] at hd
    split at hd
    · obtain ⟨d₀, hd₀, rfl⟩ := Option.map_eq_some_iff.1 hd
      exact ⟨d₀, hd₀, hf d₀⟩
    · exact ⟨d, hd, rfl⟩
  cases hchange with
  | quiet hdb =>
    rw [hdb] at hd
    exact ⟨d, hd, rfl⟩
  | approved _ _ happroved => exact hupdated happroved.deposits fun _ => rfl
  | rejected _ _ hrejected => exact hupdated hrejected.deposits fun _ => rfl

/-- What an action of thread `i` guarantees. -/
def depositGuar (i : ℕ) (c : DepositCall) (h : List World) (w' : World) : Prop :=
  ∀ w past, h = w :: past → DepositChange h w.db w'.db c ∧ ∀ j, j ≠ i → Keeps j w w'

/-- The discipline of decisions on deposits. -/
def deposits : Discipline World Error Answer DepositCall where
  rely := rely
  guar := depositGuar
  post := fun _ _ _ => True
  rely_trans := rely_trans
  rely_of_guar := fun hij hg => rely_own ((hg _ _ rfl).2 _ (Ne.symm hij))
  post_mono := fun _ => trivial

section Follows

variable {i : ℕ} {c : DepositCall} {h : List World} {α : Type}

instance : Idles i (depositGuar i c) where
  idle := by
    intro w w' past hdb hkeeps x px hx
    cases hx
    exact ⟨.quiet hdb, hkeeps⟩

/-- The check, then more: the deposit was seen pending. -/
theorem pendingDeposit_follows {id : Uuid} {k : CheckDeposit → Service α}
    (hk : ∀ d h', DepositSeen h' id d → d.status = .pending →
      (k d).Follows (rely i) (depositGuar i c) (fun _ _ => True) h') :
    (pendingDeposit id >>= k).Follows (rely i) (depositGuar i c) (fun _ _ => True) h := by
  refine Prog.follows_bind (follows_query fun w past _ => ?_)
  cases hd : w.db.checkDeposits.lookup id with
  | none => exact Prog.follows_throw trivial
  | some d =>
    simp only
    split
    · exact Prog.follows_throw trivial
    · rename_i hstatus
      exact Prog.follows_pure (hk d _ ⟨w, List.mem_cons_self, hd⟩ (not_not.1 hstatus))

theorem DepositSeen.mono {h' : List World} {id : Uuid} {d : CheckDeposit}
    (hs : DepositSeen h id d) (hh : ∀ w ∈ h, w ∈ h') : DepositSeen h' id d := by
  obtain ⟨w, hw, hd⟩ := hs
  exact ⟨w, hh w hw, hd⟩

/-- A quiet service as the rest of a call. -/
theorem quiet_rest {p : Service α} (hp : Quiet p) :
    p.Follows (rely i) (depositGuar i c) (fun _ _ => True) h :=
  hp.follows fun _ _ _ => trivial

theorem approveDeposit_follows {ac : ApproveDepositCall} :
    (approveDeposit i ac).Follows (rely i) (depositGuar i (.approve ac)) (fun _ _ => True) h := by
  refine pendingDeposit_follows fun d h₁ hseen hpending => ?_
  refine Quiet.follows_bind (quiet_query _) (fun account h₂ hR₂ => ?_) fun _ _ _ => trivial
  cases account with
  | none => exact Prog.follows_throw trivial
  | some a =>
    refine Prog.follows_bind (follows_commit (fun w past r db' hR hb => ?_) fun _ _ _ => trivial)
    have happroved := approveTx_ok hb
    refine ⟨fun x hx => balance_of_credited happroved.balance hx, fun hkeeps w' past' hw' => ?_, ?_⟩
    · cases hw'
      exact ⟨.approved ((hseen.mono hR₂.1).mono hR.1) hpending happroved, hkeeps⟩
    · exact quiet_rest (quiet_bind (quiet_announceDeposit ac d) fun _ => quiet_pure _)

theorem rejectDeposit_follows {rc : RejectDepositCall} :
    (rejectDeposit i rc).Follows (rely i) (depositGuar i (.reject rc)) (fun _ _ => True) h := by
  refine pendingDeposit_follows fun d h₁ hseen hpending => ?_
  refine Prog.follows_bind (follows_commit (fun w past r db' hR hb => ?_) fun _ _ _ => trivial)
  have hrejected : DepositRejected rc w.db db' := rejectDeposit_ok hb
  refine ⟨fun x _ => ?_, fun hkeeps w' past' hw' => ?_, quiet_rest (quiet_pure _)⟩
  · obtain ⟨D, rfl⟩ := hrejected.others
    rfl
  · cases hw'
    exact ⟨.rejected (hseen.mono hR.1) hpending hrejected, hkeeps⟩

/-- **Every decision on a deposit follows the discipline**, in whatever company. -/
theorem deposit_follows (i : ℕ) (c : DepositCall) (h : List World) :
    (depositProgram i c).Follows (rely i) (depositGuar i c) (fun _ _ => True) h := by
  cases c with
  | approve ac => exact approveDeposit_follows.seq fun _ _ => Prog.follows_pure trivial
  | reject rc => exact rejectDeposit_follows.seq fun _ _ => Prog.follows_pure trivial

end Follows

end BankDemo.CheckDeposits
