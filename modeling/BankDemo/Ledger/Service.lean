import BankDemo.Store

/-!
# The ledger service

`LedgerService.post` writes a journal entry inside the caller's transaction, after checking that
it has two postings at least and that debits equal credits. It does not look at the sign of the
amounts. Ledger accounts that do not exist yet are created from the posting's `meta`.

`Posted` says what a successful `post` did to the database (`post_ok`).
`TrialBalanceService.computeAndReport` sums the postings by ledger account.
-/

namespace BankDemo.Ledger

/-- `PostingInput.meta`: what is needed to create a missing ledger account. -/
structure PostingMeta where
  ownerUserId : Option Uuid
  type : Option LedgerAccountType
  normalBalance : Option Direction

structure PostingInput where
  code : LedgerCode
  direction : Direction
  amountCents : ℤ
  meta_ : Option PostingMeta

/-- The posting that is stored. -/
def PostingInput.toPosting (p : PostingInput) : Posting LedgerCode :=
  ⟨p.code, p.direction, p.amountCents⟩

structure JournalInput where
  description : String
  occurredAt : Instant
  source : JournalSource
  referenceId : Option Uuid
  postings : List PostingInput

/-- A debit on a ledger account that exists. -/
def debit (code : LedgerCode) (amountCents : ℤ) : PostingInput := ⟨code, .debit, amountCents, none⟩

/-- A credit on a ledger account that exists. -/
def credit (code : LedgerCode) (amountCents : ℤ) : PostingInput :=
  ⟨code, .credit, amountCents, none⟩

/-- `SYSTEM_LEDGER_SEEDS`. -/
def systemLedgerSeeds : List (LedgerCode × LedgerAccount) :=
  [(.cash, ⟨.asset, .debit, none⟩),
    (.pendingOut, ⟨.liability, .credit, none⟩),
    (.pendingIn, ⟨.asset, .debit, none⟩),
    (.feeRevenue, ⟨.revenue, .credit, none⟩),
    (.interestExpense, ⟨.expense, .debit, none⟩)]

/-- `ledgerAccount.upsert` with an empty update. -/
def ensureLedgerAccount (code : LedgerCode) (row : LedgerAccount) : Tx Unit := fun db =>
  match db.ledgerAccounts.lookup code with
  | some _ => .ok ((), db)
  | none => .ok ((), { db with ledgerAccounts := db.ledgerAccounts.insert code row })

/-- The sub-ledger of a customer account, created when missing. -/
def ensureAccountLedger (accountId ownerUserId : Uuid) : Tx Unit :=
  ensureLedgerAccount (accountSubLedgerCode accountId) ⟨.liability, .credit, some ownerUserId⟩

/-- The loop of `post` over the postings whose ledger account does not exist. -/
def createMissing : List PostingInput → Tx Unit
  | [] => pure ()
  | p :: ps => fun db =>
    match db.ledgerAccounts.lookup p.code with
    | some _ => createMissing ps db
    | none =>
      match p.meta_ with
      | some ⟨owner, some type, some normalBalance⟩ =>
        createMissing ps { db with
          ledgerAccounts := db.ledgerAccounts.insert p.code ⟨type, normalBalance, owner⟩ }
      | _ => .error (.internal
          s!"Unknown ledger account {p.code.text} and no meta provided to create it")

/-- `LedgerService.post`: the id of the new journal entry. -/
def post (input : JournalInput) : Tx ℕ :=
  let postings := input.postings.map PostingInput.toPosting
  let sumDebit := DoubleEntry.sideSum .debit postings
  let sumCredit := DoubleEntry.sideSum .credit postings
  if input.postings.length < 2 then
    throw (.internal "Journal entry requires at least 2 postings")
  else if sumDebit ≠ sumCredit then
    throw (.internal s!"Unbalanced journal: debits={sumDebit} credits={sumCredit}")
  else do
    createMissing input.postings
    fun db => .ok (db.journal.length, { db with
      journal := db.journal ++
        [⟨input.description, input.occurredAt, input.source, input.referenceId, postings⟩] })

/-! ## What a successful call did -/

/-- `L'` has the accounts of `L`, with the same rows. -/
def Extends (L L' : Table LedgerCode LedgerAccount) : Prop :=
  ∀ c r, L.lookup c = some r → L'.lookup c = some r

theorem Extends.refl (L : Table LedgerCode LedgerAccount) : Extends L L := fun _ _ h => h

theorem Extends.trans {L₁ L₂ L₃ : Table LedgerCode LedgerAccount} (h : Extends L₁ L₂)
    (h' : Extends L₂ L₃) : Extends L₁ L₃ := fun c r hc => h' c r (h c r hc)

theorem extends_insert {L : Table LedgerCode LedgerAccount} {c : LedgerCode}
    (hc : L.lookup c = none) (row : LedgerAccount) : Extends L (L.insert c row) := by
  intro c' r hr
  rw [Table.lookup_insert_ite, if_neg]
  · exact hr
  · rintro rfl
    rw [hc] at hr
    cases hr

theorem ensureLedgerAccount_ok {code : LedgerCode} {row : LedgerAccount} {db : Db} {r : Unit × Db}
    (h : ensureLedgerAccount code row db = .ok r) :
    ∃ L, r.2 = { db with ledgerAccounts := L } ∧ Extends db.ledgerAccounts L ∧
      (L.lookup code).isSome := by
  unfold ensureLedgerAccount at h
  split at h
  · rename_i x hx
    cases h
    exact ⟨_, rfl, .refl _, by rw [hx]; rfl⟩
  · rename_i hx
    cases h
    exact ⟨_, rfl, extends_insert hx _, by rw [AList.lookup_insert]; rfl⟩

theorem ensureAccountLedger_ok {a u : Uuid} {db : Db} {r : Unit × Db}
    (h : ensureAccountLedger a u db = .ok r) :
    ∃ L, r.2 = { db with ledgerAccounts := L } ∧ Extends db.ledgerAccounts L ∧
      (L.lookup (.account a)).isSome :=
  ensureLedgerAccount_ok h

theorem createMissing_ok : ∀ {ps : List PostingInput} {db : Db} {r : Unit × Db},
    createMissing ps db = .ok r →
    ∃ L, r.2 = { db with ledgerAccounts := L } ∧ Extends db.ledgerAccounts L ∧
      ∀ p ∈ ps, (L.lookup p.code).isSome
  | [], db, r, h => by
    obtain rfl := tx_pure_ok.1 h
    exact ⟨_, rfl, .refl _, by simp⟩
  | p :: ps, db, r, h => by
    have isSome_of {L : Table LedgerCode LedgerAccount} {x : LedgerAccount}
        (hx : L.lookup p.code = some x) : (L.lookup p.code).isSome := by rw [hx]; rfl
    unfold createMissing at h
    split at h
    · rename_i x hx
      obtain ⟨L, hr, hL, hps⟩ := createMissing_ok h
      exact ⟨L, hr, hL, List.forall_mem_cons.2 ⟨isSome_of (hL _ _ hx), hps⟩⟩
    · rename_i hx
      split at h
      · obtain ⟨L, hr, hL, hps⟩ := createMissing_ok h
        exact ⟨L, hr, (extends_insert hx _).trans hL,
          List.forall_mem_cons.2 ⟨isSome_of (hL _ _ (AList.lookup_insert _)), hps⟩⟩
      · cases h

/-- What a successful `post` of `input` did. -/
structure Posted (input : JournalInput) (db db' : Db) : Prop where
  two_le : 2 ≤ input.postings.length
  balanced : DoubleEntry.Balanced (input.postings.map PostingInput.toPosting)
  write : ∃ L, Extends db.ledgerAccounts L ∧ (∀ p ∈ input.postings, (L.lookup p.code).isSome) ∧
    db' = { db with
      ledgerAccounts := L
      journal := db.journal ++ [⟨input.description, input.occurredAt, input.source,
        input.referenceId, input.postings.map PostingInput.toPosting⟩] }

theorem post_ok {input : JournalInput} {db : Db} {r : ℕ × Db} (h : post input db = .ok r) :
    Posted input db r.2 := by
  unfold post at h
  split at h
  · exact absurd h tx_throw_ok
  · rename_i hlen
    split at h
    · exact absurd h tx_throw_ok
    · rename_i hbal
      obtain ⟨_, db₁, h₁, h₂⟩ := tx_bind_ok.1 h
      obtain ⟨L, hdb₁, hL, hps⟩ := createMissing_ok h₁
      cases h₂
      simp only at hdb₁
      subst hdb₁
      exact ⟨by omega, not_not.1 hbal, L, hL, hps, rfl⟩

/-! ## The trial balance -/

structure TrialBalanceRow where
  code : LedgerCode
  type : LedgerAccountType
  debits : ℤ
  credits : ℤ

/-- The rows of the report: every ledger account with the sums of its postings. -/
def trialBalanceRows (db : Db) : List TrialBalanceRow :=
  db.ledgerAccounts.entries.map fun e =>
    ⟨e.1, e.2.type, DoubleEntry.codeSum .debit db.postings e.1,
      DoubleEntry.codeSum .credit db.postings e.1⟩

/-- `TrialBalanceService.computeAndReport`: whether the books balance, and the difference. -/
def computeAndReport (db : Db) : Bool × ℤ :=
  let rows := trialBalanceRows db
  let delta := (rows.map TrialBalanceRow.debits).sum - (rows.map TrialBalanceRow.credits).sum
  (delta = 0, delta)

end BankDemo.Ledger
