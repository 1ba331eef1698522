import BankDemo.Cards.Service

/-!
# Provisioning after an approval

`AccountProvisionerService` opens the accounts of a user whose KYC record is approved, and announces
both accounts, whether it has opened them or found them. The handler of an approval is the approval
itself and then what its event starts, which other handlers may overtake.

`openAccounts_ensures` says what the transaction of `provisionForUser` leaves behind: both accounts
and the limits, under the first numbers drawn, or nothing, because an id or one of these numbers is
taken. The later attempts of `createAccount` never help (`createAttempts_aborted`).
-/

namespace BankDemo.Accounts

open Cards

/-- `onKycApproved`: failures are logged. -/
def onKycApproved (cfg : Config) (d : Draws) (payload : Kyc.KycApprovedPayload) : Handler Unit :=
  tryCatch (do
    let (checking, savings) ← provisionForUser cfg d d.openedAt payload.userId
    onAccountCreated cfg d ⟨checking.1, payload.userId, .checking, d.announcedAt⟩
    onAccountCreated cfg d ⟨savings.1, payload.userId, .savings, d.announcedAt⟩) fun _ => pure ()

/-- The decisions on KYC records. -/
inductive KycCall
  | approve (now : Instant) (kycId reviewerUserId : Uuid)
  | reject (now : Instant) (kycId reviewerUserId : Uuid) (reason : String)
      (missingFields : List String)
  deriving DecidableEq

/-- The record that a call approves. -/
def KycCall.approving : KycCall → Option Uuid
  | .approve _ kycId _ => some kycId
  | .reject .. => none

/-- A decision, with the handler of its event. -/
def handle (cfg : Config) (d : Draws) : KycCall → Handler Unit
  | .approve now kycId reviewerUserId => do
    let payload ← (Kyc.approve now kycId reviewerUserId).zoom Branch.officePart
    onKycApproved cfg d payload
  | .reject now kycId reviewerUserId reason missingFields => do
    let _ ← (Kyc.reject now kycId reviewerUserId reason missingFields).zoom Branch.officePart
    pure ()

/-! ## The accounts of a user -/

theorem mem_listForUser {userId : Uuid} {b : Branch} {a : AccountRow} :
    a ∈ listForUser userId b ↔ b.accounts.lookup a.1 = some a.2 ∧ a.2.userId = userId := by
  rw [listForUser, List.mem_insertionSort, List.mem_filter, List.mem_map, decide_eq_true_eq]
  refine and_congr_left fun _ => ⟨?_, fun h => ⟨⟨a.1, a.2⟩, Table.mem_entries_iff.2 h, rfl⟩⟩
  rintro ⟨e, he, rfl⟩
  exact Table.mem_entries_iff.1 he

theorem findBoth_some {accs : List AccountRow} {both : AccountRow × AccountRow}
    (h : findBoth accs = some both) : both.1 ∈ accs ∧ both.2 ∈ accs ∧
      both.1.2.type = .checking ∧ both.2.2.type = .savings := by
  unfold findBoth at h
  simp only [Option.bind_eq_bind, Option.bind_eq_some_iff] at h
  obtain ⟨checking, hchecking, savings, hsavings, hboth⟩ := h
  obtain rfl := Option.some.inj hboth
  have htype := List.find?_some hchecking
  have htype' := List.find?_some hsavings
  exact ⟨List.mem_of_find?_eq_some hchecking, List.mem_of_find?_eq_some hsavings,
    of_decide_eq_true htype, of_decide_eq_true htype'⟩

/-! ## The transaction -/

section Transactions

variable {t : Tx}

theorem statement_ensures {α : Type} {body : Tx → Except Error (α × Tx)} (hopen : t.aborted = false) :
    (statement body).Ensures t fun r t' => match r with
      | .ok a => body t = .ok (a, t')
      | .error e => body t = .error e ∧ t'.aborted = true := by
  unfold statement Prog.Ensures
  simp only [Prog.run, hopen, Bool.false_eq_true, if_false]
  cases body t with
  | ok r => rfl
  | error e => exact ⟨rfl, rfl⟩

theorem statement_aborted {α : Type} {body : Tx → Except Error (α × Tx)} (h : t.aborted = true) :
    (statement body).Ensures t fun r t' =>
      r = .error (.internal "current transaction is aborted") ∧ t' = t := by
  unfold statement Prog.Ensures
  simp only [Prog.run, h, if_true]
  exact ⟨rfl, rfl⟩

theorem createRow_ensures {id : Uuid} {row : Account} (hopen : t.aborted = false) :
    (createRow id row).Ensures t fun r t' => match r with
      | .ok a => a = (id, row) ∧ t.accounts.lookup id = none ∧
          numberTaken t.accounts row.mockAccountNumber = false ∧
          t' = { t with accounts := t.accounts.insert id row }
      | .error e => e = .uniqueViolation ∧ t'.aborted = true ∧
          ((t.accounts.lookup id).isSome ∨ numberTaken t.accounts row.mockAccountNumber = true) := by
  refine (statement_ensures hopen).imp fun r t' hr => ?_
  cases r with
  | ok a =>
    simp only at hr ⊢
    split at hr
    · cases hr
    · rename_i hfree
      simp only [Bool.or_eq_true, not_or, Bool.not_eq_true] at hfree
      cases hr
      exact ⟨rfl, by simpa using hfree.1, hfree.2, rfl⟩
  | error e =>
    obtain ⟨hbody, haborted⟩ := hr
    split at hbody
    · rename_i htaken
      cases hbody
      exact ⟨rfl, haborted, by simpa using htaken⟩
    · cases hbody

/-- Once the transaction is aborted, no attempt succeeds. -/
theorem createAttempts_aborted {id : Uuid} {row : String → Account} {draw : ℕ → String} (left : ℕ)
    (h : t.aborted = true) :
    (createAttempts id row draw left).Ensures t fun r _ => ∃ e, r = .error e := by
  cases left with
  | zero => exact Prog.ensures_throw ⟨_, rfl⟩
  | succ left =>
    refine Prog.ensures_tryCatch ((statement_aborted h).imp fun r t' hr => ?_)
    obtain ⟨rfl, -⟩ := hr
    exact Prog.ensures_throw ⟨_, rfl⟩

theorem createAccount_ensures {now : Instant} {id userId : Uuid} {type : AccountType}
    {label : String} {apyBps : Option ℤ} {draw : ℕ → String} (hopen : t.aborted = false) :
    (createAccount now id userId type label apyBps draw).Ensures t fun r t' =>
      let row := newAccount now userId type label apyBps (draw 0)
      match r with
      | .ok a => a = (id, row) ∧ t.accounts.lookup id = none ∧
          numberTaken t.accounts (draw 0) = false ∧
          t' = { t with accounts := t.accounts.insert id row }
      | .error _ => (t.accounts.lookup id).isSome ∨ numberTaken t.accounts (draw 0) = true := by
  refine Prog.ensures_tryCatch ((createRow_ensures hopen).imp fun r t' hr => ?_)
  cases r with
  | ok a => exact hr
  | error e =>
    obtain ⟨rfl, haborted, htaken⟩ := hr
    -- the second attempt finds the transaction aborted
    refine (createAttempts_aborted 4 haborted).imp fun r _ hr => ?_
    obtain ⟨e, rfl⟩ := hr
    exact htaken

theorem createLimits_ensures {accountId : Uuid} {limits : AccountLimits} (hopen : t.aborted = false)
    (haccount : (t.accounts.lookup accountId).isSome) :
    (createLimits accountId limits).Ensures t fun r t' => match r with
      | .ok _ => t.limits.lookup accountId = none ∧
          t' = { t with limits := t.limits.insert accountId limits }
      | .error _ => (t.limits.lookup accountId).isSome := by
  refine (statement_ensures hopen).imp fun r t' hr => ?_
  rw [Option.isNone_eq_false_iff.2 haccount] at hr
  cases r with
  | ok a =>
    simp only [Bool.false_eq_true, if_false] at hr ⊢
    split at hr
    · cases hr
    · rename_i hfree
      cases hr
      exact ⟨by simpa using hfree, rfl⟩
  | error e =>
    obtain ⟨hbody, -⟩ := hr
    simp only [Bool.false_eq_true, if_false] at hbody
    split at hbody
    · rename_i htaken
      exact htaken
    · cases hbody

end Transactions

/-- The checking account that a provisioning opens. -/
def Draws.checking (d : Draws) (now : Instant) (userId : Uuid) : Account :=
  newAccount now userId .checking "Checking" none (d.mockAccountNumber .checking 0)

/-- The savings account that a provisioning opens. -/
def Draws.savings (d : Draws) (cfg : Config) (now : Instant) (userId : Uuid) : Account :=
  newAccount now userId .savings "Savings" (some cfg.savingsApyBps) (d.mockAccountNumber .savings 0)

/-- The branch with both accounts and the limits. -/
def Draws.opened (d : Draws) (cfg : Config) (now : Instant) (userId : Uuid) (b : Branch) : Branch :=
  { b with
    accounts := (b.accounts.insert d.checkingId (d.checking now userId)).insert d.savingsId
      (d.savings cfg now userId)
    limits := b.limits.insert d.checkingId cfg.limits }

/-- The ids and the numbers drawn first are not in use. -/
structure Clear (d : Draws) (now : Instant) (userId : Uuid) (b : Branch) : Prop where
  checking : b.accounts.lookup d.checkingId = none
  savings : (b.accounts.insert d.checkingId (d.checking now userId)).lookup d.savingsId = none
  limits : b.limits.lookup d.checkingId = none
  checkingNumber : numberTaken b.accounts (d.mockAccountNumber .checking 0) = false
  savingsNumber : numberTaken (b.accounts.insert d.checkingId (d.checking now userId))
    (d.mockAccountNumber .savings 0) = false

theorem openAccounts_ensures (cfg : Config) (d : Draws) (now : Instant) (userId : Uuid) (b : Branch) :
    (openAccounts cfg d now userId).Ensures ⟨b.accounts, b.limits, false⟩ fun r t =>
      match r with
      | .ok both => Clear d now userId b ∧ both = ((d.checkingId, d.checking now userId),
            (d.savingsId, d.savings cfg now userId)) ∧
          t = ⟨(d.opened cfg now userId b).accounts, (d.opened cfg now userId b).limits, false⟩
      | .error _ => ¬ Clear d now userId b := by
  refine Prog.ensures_bind ((createAccount_ensures rfl).imp fun r t hr => ?_)
  cases r with
  | error e =>
    intro hclear
    rcases hr with hid | hnumber
    · rw [hclear.checking] at hid
      cases hid
    · rw [hclear.checkingNumber] at hnumber
      cases hnumber
  | ok checking =>
    obtain ⟨rfl, hchecking, hcheckingNumber, rfl⟩ := hr
    refine Prog.ensures_bind ((createLimits_ensures rfl ?_).imp fun r t hr => ?_)
    · simp
    cases r with
    | error e =>
      intro hclear
      have htaken : (b.limits.lookup d.checkingId).isSome := hr
      rw [hclear.limits] at htaken
      cases htaken
    | ok _ =>
      obtain ⟨hlimits, rfl⟩ := hr
      refine Prog.ensures_bind ((createAccount_ensures rfl).imp fun r t hr => ?_)
      cases r with
      | error e =>
        intro hclear
        let accounts := b.accounts.insert d.checkingId (d.checking now userId)
        rcases hr with hid | hnumber
        · have htaken : (accounts.lookup d.savingsId).isSome := hid
          rw [hclear.savings] at htaken
          cases htaken
        · have htaken : numberTaken accounts (d.mockAccountNumber .savings 0) = true := hnumber
          rw [hclear.savingsNumber] at htaken
          cases htaken
      | ok savings =>
        obtain ⟨rfl, hsavings, hsavingsNumber, rfl⟩ := hr
        exact Prog.ensures_pure
          ⟨⟨hchecking, hsavings, hlimits, hcheckingNumber, hsavingsNumber⟩, rfl, rfl⟩

/-- The transaction of `provisionForUser`: both accounts are opened, or nothing happens. -/
theorem provision_upholds {cfg : Config} {d : Draws} {now : Instant} {userId : Uuid} {s : Branch}
    {R G : Branch → Branch → Prop} {Q : Except Error (AccountRow × AccountRow) → Branch → Prop}
    (hok : ∀ b, R s b → Clear d now userId b → G b (d.opened cfg now userId b) ∧
      Q (.ok ((d.checkingId, d.checking now userId), (d.savingsId, d.savings cfg now userId)))
        (d.opened cfg now userId b))
    (herr : ∀ b e, R s b → ¬ Clear d now userId b → G b b ∧ Q (.error e) b) :
    (transaction (openAccounts cfg d now userId)).Upholds R G Q s := by
  have hopen := openAccounts_ensures cfg d now userId
  unfold Prog.Ensures at hopen
  refine Prog.upholds_attempt (fun b both b' hR hb => ?_) fun b e hR hb => ?_
  · have hopen := hopen b
    split at hb
    · rename_i both' t hrun
      rw [hrun] at hopen
      obtain ⟨hclear, rfl, rfl⟩ := hopen
      cases hb
      exact hok b hR hclear
    · cases hb
  · have hopen := hopen b
    split at hb
    · cases hb
    · rename_i e' t hrun
      rw [hrun] at hopen
      exact herr b e hR hopen

end BankDemo.Accounts
