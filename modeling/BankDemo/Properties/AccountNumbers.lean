import BankDemo.Properties.Provisioning

/-!
# Drawing account numbers again

`createAccount` draws a number up to five times. But a number that is taken aborts the transaction in
which all attempts run, so only the numbers drawn first count (`retry_works_iff`).
-/

namespace BankDemo.Accounts

open Prog

variable {cfg : Config} {d : Draws} {now : Instant} {userId : Uuid} {b : Branch}

/-- The ids drawn are new. -/
structure Fresh (d : Draws) (b : Branch) : Prop where
  checking : b.accounts.lookup d.checkingId = none
  savings : b.accounts.lookup d.savingsId = none
  ne : d.checkingId ≠ d.savingsId
  limits : b.limits.lookup d.checkingId = none

/-- The attempts `i` and `j` draw numbers that nobody has, and not the same one. -/
structure Usable (d : Draws) (b : Branch) (i j : ℕ) : Prop where
  checking : numberTaken b.accounts (d.mockAccountNumber .checking i) = false
  savings : numberTaken b.accounts (d.mockAccountNumber .savings j) = false
  ne : d.mockAccountNumber .checking i ≠ d.mockAccountNumber .savings j

/-- The user's accounts, if `provisionForUser` finds both. -/
def Branch.both (b : Branch) (userId : Uuid) : Option (AccountRow × AccountRow) :=
  findBoth (listForUser userId b)

/-- The answer is a checking account, with its limits, and a savings account, and they are there. -/
def Provisioned (r : Except Error (AccountRow × AccountRow)) (b' : Branch) : Prop :=
  ∃ checking savings : AccountRow, r = .ok (checking, savings) ∧
    b'.accounts.lookup checking.1 = some checking.2 ∧ (b'.limits.lookup checking.1).isSome = true ∧
    b'.accounts.lookup savings.1 = some savings.2

/-- Some pair of the first five numbers of each account can be used. -/
def SomeUsable (d : Draws) (b : Branch) : Prop := ∃ i < 5, ∃ j < 5, Usable d b i j

/-- With a usable pair of numbers both accounts are there in the end, and otherwise nothing is left
behind. -/
structure Works (usable : Prop) (b : Branch) (r : Except Error (AccountRow × AccountRow))
    (b' : Branch) : Prop where
  succeeds : usable → Provisioned r b'
  leavesNothing : ¬ usable → b'.accounts = b.accounts ∧ b'.limits = b.limits

/-- Drawing again works for `provisionForUser`. -/
def RetryWorks (cfg : Config) (d : Draws) (now : Instant) (userId : Uuid) (b : Branch) : Prop :=
  Works (SomeUsable d b) b ((provisionForUser cfg d now userId).run b).1
    ((provisionForUser cfg d now userId).run b).2

/-! ## What is taken after the first account -/

theorem numberTaken_insert {accounts : Table Uuid Account} {id : Uuid} {row : Account}
    (hnew : accounts.lookup id = none) (number : String) :
    numberTaken (accounts.insert id row) number =
      (decide (row.mockAccountNumber = number) || numberTaken accounts number) := by
  unfold numberTaken
  rw [AList.entries_insert_of_notMem (AList.lookup_eq_none.1 hnew), List.any_cons]

/-- With new ids, what counts is the numbers drawn first. -/
theorem clear_iff (hfresh : Fresh d b) : Clear d now userId b ↔ Usable d b 0 0 := by
  have hsavings : numberTaken (b.accounts.insert d.checkingId (d.checking now userId))
      (d.mockAccountNumber .savings 0) = false ↔
        d.mockAccountNumber .checking 0 ≠ d.mockAccountNumber .savings 0 ∧
          numberTaken b.accounts (d.mockAccountNumber .savings 0) = false := by
    rw [numberTaken_insert hfresh.checking, Bool.or_eq_false_iff, decide_eq_false_iff_not]
    rfl
  constructor
  · intro h
    obtain ⟨hne, hfree⟩ := hsavings.1 h.savingsNumber
    exact ⟨h.checkingNumber, hfree, hne⟩
  · intro h
    refine ⟨hfresh.checking, ?_, hfresh.limits, h.checking, hsavings.2 ⟨h.ne, h.savings⟩⟩
    rw [AList.lookup_insert_ne hfresh.ne.symm]
    exact hfresh.savings

/-! ## The handler -/

/-- The transaction opens both accounts, or nothing happens. -/
theorem transaction_ensures {Q : Except Error (AccountRow × AccountRow) → Branch → Prop}
    (hok : Clear d now userId b → Q (.ok ((d.checkingId, d.checking now userId),
      (d.savingsId, d.savings cfg now userId))) (d.opened cfg now userId b))
    (herr : ∀ e, ¬ Clear d now userId b → Q (.error e) b) :
    (transaction (openAccounts cfg d now userId)).Ensures b Q := by
  have hopen := openAccounts_ensures cfg d now userId b
  unfold Prog.Ensures at hopen
  refine ensures_attempt (fun both b' hb => ?_) fun e hb => ?_
  · split at hb
    · rename_i both' t hrun
      rw [hrun] at hopen
      obtain ⟨hclear, rfl, rfl⟩ := hopen
      cases hb
      exact hok hclear
    · cases hb
  · split at hb
    · cases hb
    · rename_i e' t hrun
      rw [hrun] at hopen
      exact herr e hopen

/-- Without accounts of the user, there are not both. -/
theorem both_of_count_eq_zero (h : countForUser userId b = 0) : b.both userId = none := by
  cases hboth : b.both userId with
  | none => rfl
  | some both =>
    obtain ⟨hrow, huser⟩ := mem_listForUser.1 (findBoth_some hboth).1
    have hmem : (⟨both.1.1, both.1.2⟩ : Sigma fun _ : Uuid => Account) ∈
        b.accounts.entries.filter fun e => e.2.userId = userId :=
      List.mem_filter.2 ⟨Table.mem_entries_iff.2 hrow, decide_eq_true huser⟩
    rw [List.eq_nil_of_length_eq_zero h] at hmem
    cases hmem

/-- `provisionForUser` finds both accounts, or its transaction runs. -/
theorem provisionForUser_run : (provisionForUser cfg d now userId).run b =
    match b.both userId with
    | some both => (.ok both, b)
    | none => (transaction (openAccounts cfg d now userId)).run b := by
  show (if 0 < countForUser userId b then _ else _ : Handler _).run b = _
  by_cases hcount : 0 < countForUser userId b
  · rw [if_pos hcount]
    show (match b.both userId with
      | some both => pure both
      | none => transaction (openAccounts cfg d now userId) : Handler _).run b = _
    cases b.both userId <;> rfl
  · rw [if_neg hcount, both_of_count_eq_zero (Nat.eq_zero_of_not_pos hcount)]
    rfl

theorem provisioned_opened (hfresh : Fresh d b) :
    Provisioned (.ok ((d.checkingId, d.checking now userId), (d.savingsId, d.savings cfg now userId)))
      (d.opened cfg now userId b) := by
  refine ⟨_, _, rfl, ?_, ?_, AList.lookup_insert _⟩
  · show (AList.insert _ _ (AList.insert _ _ b.accounts)).lookup d.checkingId = _
    rw [AList.lookup_insert_ne hfresh.ne, AList.lookup_insert]
  · show ((AList.insert _ _ b.limits).lookup d.checkingId).isSome = true
    rw [AList.lookup_insert]
    rfl

/-- **Drawing account numbers again.** `provisionForUser` does what it should if and only if the user has
both accounts and the limits already, or the numbers drawn first can be used, or no pair of those that
may be drawn can. -/
theorem retry_works_iff (hfresh : Fresh d b) : RetryWorks cfg d now userId b ↔
    (∃ both, b.both userId = some both ∧ (b.limits.lookup both.1.1).isSome = true) ∨
    (b.both userId = none ∧ Usable d b 0 0) ∨ ¬ SomeUsable d b := by
  unfold RetryWorks
  rw [provisionForUser_run]
  cases hboth : b.both userId with
  | some both =>
    -- the accounts are found, and nothing is written
    obtain ⟨checking, savings⟩ := both
    obtain ⟨hchecking, hsavings, -, -⟩ := findBoth_some hboth
    have hprovisioned : Provisioned (.ok (checking, savings)) b ↔
        (b.limits.lookup checking.1).isSome = true := by
      constructor
      · rintro ⟨_, _, heq, -, hlimits, -⟩
        cases heq
        exact hlimits
      · intro hlimits
        exact ⟨_, _, rfl, (mem_listForUser.1 hchecking).1, hlimits, (mem_listForUser.1 hsavings).1⟩
    constructor
    · intro h
      by_cases husable : SomeUsable d b
      · exact .inl ⟨_, rfl, hprovisioned.1 (h.succeeds husable)⟩
      · exact .inr (.inr husable)
    · rintro (⟨_, heq, hlimits⟩ | ⟨hnone, -⟩ | hunusable)
      · cases heq
        exact ⟨fun _ => hprovisioned.2 hlimits, fun _ => ⟨rfl, rfl⟩⟩
      · cases hnone
      · exact ⟨fun h => absurd h hunusable, fun _ => ⟨rfl, rfl⟩⟩
  | none =>
    refine transaction_ensures (Q := fun r b' => Works (SomeUsable d b) b r b' ↔ _)
      (fun hclear => ?_) fun e hclear => ?_
    · have hfirst : Usable d b 0 0 := (clear_iff hfresh).1 hclear
      have husable : SomeUsable d b := ⟨0, by decide, 0, by decide, hfirst⟩
      exact iff_of_true ⟨fun _ => provisioned_opened hfresh, fun h => absurd husable h⟩
        (.inr (.inl ⟨rfl, hfirst⟩))
    · have hfirst : ¬ Usable d b 0 0 := fun h => hclear ((clear_iff hfresh).2 h)
      constructor
      · intro h
        refine .inr (.inr fun husable => ?_)
        obtain ⟨_, _, heq, -⟩ := h.succeeds husable
        cases heq
      · rintro (⟨_, heq, -⟩ | ⟨-, h⟩ | hunusable)
        · cases heq
        · exact absurd h hfirst
        · exact ⟨fun h => absurd h hunusable, fun _ => ⟨rfl, rfl⟩⟩

/-- The number that a user's checking account would get first is another user's. -/
def crowdedBranch : Branch :=
  { sampleBranch with
    accounts := (∅ : Table Uuid Account).insert 100
      (newAccount 0 2 .checking "Checking" none ((sampleDraws 0).mockAccountNumber .checking 0)) }

theorem fresh_crowded : Fresh (sampleDraws 0) crowdedBranch :=
  ⟨by decide, by decide, by decide, by decide⟩

/-- The second number could be used, and no account is opened. -/
theorem retry_fails : ¬ ∀ (cfg : Config) (d : Draws) (now : Instant) (userId : Uuid) (b : Branch),
    Fresh d b → RetryWorks cfg d now userId b := by
  intro h
  have husable : SomeUsable (sampleDraws 0) crowdedBranch :=
    ⟨1, by decide, 0, by decide, by decide +kernel, by decide +kernel, by decide +kernel⟩
  obtain ⟨_, _, hok, -⟩ := (h {} (sampleDraws 0) 0 1 crowdedBranch fresh_crowded).succeeds husable
  have herror : ((provisionForUser {} (sampleDraws 0) 0 1).run crowdedBranch).1 =
      .error (.internal "current transaction is aborted") := by decide +kernel
  rw [herror] at hok
  cases hok

/-- Another user draws other numbers. -/
theorem retry_works_other : RetryWorks {} (sampleDraws 1) 0 1 crowdedBranch :=
  (retry_works_iff ⟨by decide, by decide, by decide, by decide⟩).2
    (.inr (.inl ⟨by decide +kernel, by decide +kernel, by decide +kernel, by decide +kernel⟩))

end BankDemo.Accounts
