import BankDemo.Admin.Wires
import Mathlib.Data.Set.Finite.Basic

/-!
# When settlements and refunds go through

A transaction that ends a transfer throws when a row it counts on is gone: the sender's account,
the account it is delivered to, a ledger account of the system or the pending transaction. Where
these are there it commits (`settleTx_goes`, `reverseTx_goes`), given unused ids for the rows it
makes, and a run of the worker or a reversal alone does not throw (`process_goes`,
`reverseWire_goes`).
-/

namespace BankDemo

open Ledger Transfers Admin

/-- The transaction commits. -/
def Tx.Goes {α : Type} (body : Tx α) (db : Db) : Prop := ∃ r, body db = .ok r

namespace Tx

variable {α β : Type} {db : Db}

theorem goes_pure (a : α) : Goes (pure a : Tx α) db := ⟨(a, db), rfl⟩

theorem goes_query (f : Db → α) : Goes (query f) db := ⟨(f db, db), rfl⟩

theorem goes_bind {x : Tx α} {f : α → Tx β} (hx : Goes x db)
    (hf : ∀ a db', x db = .ok (a, db') → Goes (f a) db') : Goes (x >>= f) db := by
  obtain ⟨⟨a, db'⟩, ha⟩ := hx
  obtain ⟨r, hr⟩ := hf a db' ha
  exact ⟨r, tx_bind_ok.2 ⟨a, db', ha, hr⟩⟩

theorem goes_incrementBalance {a : Uuid} (ha : (db.accounts.lookup a).isSome) (d : ℤ) :
    Goes (incrementBalance a d) db := by
  obtain ⟨acct, hacct⟩ := Option.isSome_iff_exists.1 ha
  simp only [Goes, incrementBalance, hacct]
  exact ⟨_, rfl⟩

theorem goes_createTransaction {id : Uuid} {row : Transaction}
    (hid : db.transactions.lookup id = none) (ha : (db.accounts.lookup row.accountId).isSome) :
    Goes (createTransaction id row) db := by
  obtain ⟨acct, hacct⟩ := Option.isSome_iff_exists.1 ha
  simp only [Goes, createTransaction, hid, hacct]
  exact ⟨_, rfl⟩

theorem goes_updateTransaction? {id : Option Uuid} {f : Transaction → Transaction}
    (hid : ∀ p, id = some p → (db.transactions.lookup p).isSome) :
    Goes (updateTransaction? id f) db := by
  cases id with
  | none => exact goes_pure ()
  | some p =>
    obtain ⟨row, hrow⟩ := Option.isSome_iff_exists.1 (hid p rfl)
    simp only [Goes, updateTransaction?, updateTransaction, hrow]
    exact ⟨_, rfl⟩

theorem goes_updateManyTransaction (id : Uuid) (f : Transaction → Transaction) :
    Goes (updateManyTransaction id f) db := by
  unfold Goes updateManyTransaction
  split
  · exact ⟨_, rfl⟩
  · exact ⟨_, rfl⟩

theorem goes_updateTransfer {id : Uuid} (hid : (db.transfers.lookup id).isSome)
    (f : Transfer → Transfer) : Goes (updateTransfer id f) db := by
  obtain ⟨row, hrow⟩ := Option.isSome_iff_exists.1 hid
  simp only [Goes, updateTransfer, hrow]
  exact ⟨_, rfl⟩

theorem goes_ensureAccountLedger (a u : Uuid) : Goes (ensureAccountLedger a u) db := by
  unfold Goes ensureAccountLedger ensureLedgerAccount
  split
  · exact ⟨_, rfl⟩
  · exact ⟨_, rfl⟩

theorem goes_createMissing : ∀ {ps : List PostingInput},
    (∀ p ∈ ps, (db.ledgerAccounts.lookup p.code).isSome) → Goes (createMissing ps) db
  | [], _ => goes_pure ()
  | p :: ps, h => by
    obtain ⟨row, hrow⟩ := Option.isSome_iff_exists.1 (h p List.mem_cons_self)
    have hps : Goes (createMissing ps) db :=
      goes_createMissing fun q hq => h q (List.mem_cons_of_mem _ hq)
    simp only [Goes, createMissing, hrow]
    exact hps

/-- An entry is written when it balances and its ledger accounts are there. -/
theorem goes_post {input : JournalInput} (htwo : 2 ≤ input.postings.length)
    (hbal : DoubleEntry.Balanced (legs input.postings))
    (hcodes : ∀ p ∈ input.postings, (db.ledgerAccounts.lookup p.code).isSome) :
    Goes (post input) db := by
  have hsides : DoubleEntry.sideSum .debit (input.postings.map PostingInput.toPosting) =
      DoubleEntry.sideSum .credit (input.postings.map PostingInput.toPosting) := hbal
  unfold Goes post
  rw [if_neg (by omega), if_neg (not_not.2 hsides)]
  exact goes_bind (goes_createMissing hcodes) fun _ _ _ => ⟨_, rfl⟩

end Tx

/-! ## The transactions that end a transfer -/

/-- The ledger accounts of the system that these transactions post to. -/
def Charted (L : Table LedgerCode LedgerAccount) : Prop :=
  ∀ code ∈ [LedgerCode.cash, .pendingOut, .feeRevenue], (L.lookup code).isSome

theorem Charted.mono {L L' : Table LedgerCode LedgerAccount} (h : Charted L) (hL : Extends L L') :
    Charted L' := by
  intro code hcode
  obtain ⟨row, hrow⟩ := Option.isSome_iff_exists.1 (h code hcode)
  rw [hL code row hrow]
  rfl

theorem charted_seeds {L : Table LedgerCode LedgerAccount}
    (h : ∀ s ∈ systemLedgerSeeds, (L.lookup s.1).isSome) : Charted L := by
  intro code hcode
  simp only [List.mem_cons, List.not_mem_nil, or_false] at hcode
  rcases hcode with rfl | rfl | rfl
  · exact h (.cash, ⟨.asset, .debit, none⟩) (by decide)
  · exact h (.pendingOut, ⟨.liability, .credit, none⟩) (by decide)
  · exact h (.feeRevenue, ⟨.revenue, .credit, none⟩) (by decide)

theorem balanced_debit_credit (x y : LedgerCode) (m : ℤ) :
    DoubleEntry.Balanced (legs [debit x m, credit y m]) := by
  simp [DoubleEntry.Balanced, DoubleEntry.sideSum, legs, debit, credit, PostingInput.toPosting,
    Posting.on]

/-- The accounts of a transfer are there: the sender's, and the one it is delivered to. -/
structure Housed (db : Db) (t : Transfer) : Prop where
  sender : (db.accounts.lookup t.fromAccountId).isSome
  destination : ∀ a, destination t = some a → (db.accounts.lookup a).isSome

/-- The pending transaction of a transfer is there. -/
def Rowed (db : Db) (t : Transfer) : Prop :=
  ∀ p, t.pendingTransactionId = some p → (db.transactions.lookup p).isSome

theorem isSome_insert {κ ρ : Type} [DecidableEq κ] {t : Table κ ρ} {a : κ}
    (h : (t.lookup a).isSome) (k : κ) (r : ρ) : ((t.insert k r).lookup a).isSome := by
  rw [Table.lookup_insert_ite]
  split
  · rfl
  · exact h

/-- The part of a settlement that depends on the kind commits. -/
theorem settlePostings_goes {c : ProcessCall} {t : Transfer} {sender : Account} {db : Db}
    (hhoused : Housed db t) (hsettled : db.transactions.lookup c.settledTxId = none)
    (hinflow : db.transactions.lookup c.inflowTxId = none) :
    Tx.Goes (settlePostings c t sender) db := by
  unfold settlePostings
  cases ha : destination t with
  | some a =>
    refine Tx.goes_bind (Tx.goes_query _) fun dest db₀ h₀ => ?_
    cases h₀
    have hdest := hhoused.destination a ha
    obtain ⟨acct, hacct⟩ := Option.isSome_iff_exists.1 hdest
    simp only [hacct]
    refine Tx.goes_bind (Tx.goes_ensureAccountLedger _ _) fun _ db₁ h₁ => ?_
    obtain ⟨L, rfl, -⟩ := ensureAccountLedger_ok h₁
    refine Tx.goes_bind (Tx.goes_incrementBalance ?_ _) fun _ db₂ h₂ => ?_
    · exact hdest
    obtain ⟨_, -, rfl⟩ := Tx.incrementBalance_ok h₂
    refine Tx.goes_bind (Tx.goes_query _) fun user db₃ h₃ => ?_
    cases h₃
    exact Tx.goes_bind (Tx.goes_createTransaction hsettled (isSome_insert hdest _ _))
      fun _ _ _ => Tx.goes_pure _
  | none =>
    simp only
    split
    · refine Tx.goes_bind (Tx.goes_incrementBalance hhoused.sender _) fun _ db₁ h₁ => ?_
      obtain ⟨_, -, rfl⟩ := Tx.incrementBalance_ok h₁
      exact Tx.goes_bind (Tx.goes_createTransaction hinflow (isSome_insert hhoused.sender _ _))
        fun _ _ _ => Tx.goes_pure _
    · exact Tx.goes_pure _

/-- The ledger accounts of the postings of a settlement. -/
theorem settleLegs_charted {t : Transfer} {L : Table LedgerCode LedgerAccount} (hL : Charted L)
    (hsender : (L.lookup (.account t.fromAccountId)).isSome)
    (hdest : ∀ a, destination t = some a → (L.lookup (.account a)).isSome) :
    ∀ p ∈ settleLegs t, (L.lookup p.code).isSome := by
  have hcash := hL .cash (by decide)
  have hpending := hL .pendingOut (by decide)
  have hpair : ∀ {x y : LedgerCode} {m : ℤ}, (L.lookup x).isSome → (L.lookup y).isSome →
      ∀ p ∈ [debit x m, credit y m], (L.lookup p.code).isSome := by
    intro x y m hx hy p hp
    simp only [List.mem_cons, List.not_mem_nil, or_false] at hp
    rcases hp with rfl | rfl
    · exact hx
    · exact hy
  unfold settleLegs
  cases ha : destination t with
  | some a => exact hpair hpending (hdest a ha)
  | none =>
    simp only
    split
    · exact hpair hcash hsender
    · exact hpair hpending hcash

theorem settleLegs_balanced (t : Transfer) : DoubleEntry.Balanced (legs (settleLegs t)) := by
  unfold settleLegs
  split
  · exact balanced_debit_credit _ _ _
  · split
    · exact balanced_debit_credit _ _ _
    · exact balanced_debit_credit _ _ _

theorem settleLegs_length (t : Transfer) : (settleLegs t).length = 2 := by
  unfold settleLegs
  split
  · rfl
  · split <;> rfl

theorem creditFed_kept {c : ProcessCall} {t : Transfer} {T T' : Table Uuid Transaction}
    (h : CreditFed c t T T') {p : Uuid} (hp : (T.lookup p).isSome) : (T'.lookup p).isSome := by
  unfold CreditFed at h
  split at h
  · obtain ⟨row, -, -, -, -, rfl⟩ := h
    exact isSome_insert hp _ _
  · rw [h]
    exact hp

/-- **A settlement goes through** where its rows are there. -/
theorem settleTx_goes {c : ProcessCall} {t : Transfer} {db : Db} (hhoused : Housed db t)
    (hchart : Charted db.ledgerAccounts) (hrow : Rowed db t)
    (ht : (db.transfers.lookup c.transferId).isSome)
    (hsettled : db.transactions.lookup c.settledTxId = none)
    (hinflow : db.transactions.lookup c.inflowTxId = none) : Tx.Goes (settleTx c t) db := by
  refine Tx.goes_bind (Tx.goes_query _) fun sender db₀ h₀ => ?_
  cases h₀
  obtain ⟨acct, hacct⟩ := Option.isSome_iff_exists.1 hhoused.sender
  simp only [hacct]
  refine Tx.goes_bind (Tx.goes_ensureAccountLedger _ _) fun _ db₁ h₁ => ?_
  obtain ⟨L, rfl, hL, hledger⟩ := ensureAccountLedger_ok h₁
  have hhoused' : Housed { db with ledgerAccounts := L } t := ⟨hhoused.sender, hhoused.destination⟩
  refine Tx.goes_bind (settlePostings_goes hhoused' hsettled hinflow) fun ps db₂ h₂ => ?_
  obtain ⟨hps, hpart⟩ := settlePostings_ok h₂
  simp only at hps hpart
  subst hps
  have hcodes := settleLegs_charted (t := t) (hchart.mono (hL.trans hpart.chart)) (by
    obtain ⟨row, hrow⟩ := Option.isSome_iff_exists.1 hledger
    rw [hpart.chart _ row hrow]
    rfl) fun a ha => (settlePostings_delivers h₂ ha).2.2
  have htwo := settleLegs_length t
  refine Tx.goes_bind (Tx.goes_post (by simp only; omega) (settleLegs_balanced t) hcodes)
    fun _ db₃ h₃ => ?_
  obtain ⟨L', -, -, hdb₃⟩ := (post_ok h₃).write
  simp only at hdb₃
  refine Tx.goes_bind (Tx.goes_updateTransaction? fun p hp => ?_) fun _ db₄ h₄ => ?_
  · rw [hdb₃]
    exact creditFed_kept hpart.feed (hrow p hp)
  · obtain ⟨T, hdb₄, -⟩ := Tx.updateTransaction?_ok h₄
    apply Tx.goes_updateTransfer
    simp only at hdb₄
    rw [hdb₄, hdb₃]
    simp only [hpart.transfers]
    exact ht

/-- **A run of the worker does not throw** where the rows of the transfer are there, with unused
ids for the rows it makes. -/
theorem process_goes (me : ℕ) {c : ProcessCall} {w : World}
    (hready : ∀ t, w.db.transfers.lookup c.transferId = some t → settleable t = true →
      Housed w.db t ∧ Rowed w.db t) (hchart : Charted w.db.ledgerAccounts)
    (hsettled : w.db.transactions.lookup c.settledTxId = none)
    (hinflow : w.db.transactions.lookup c.inflowTxId = none) :
    ((process me c).run w).1 = .ok () := by
  unfold process
  rw [Prog.run_bind, query, Prog.run_read]
  cases ht : w.db.transfers.lookup c.transferId with
  | none => rfl
  | some t =>
    simp only
    split
    · rename_i hs
      obtain ⟨hhoused, hrow⟩ := hready t ht hs
      obtain ⟨r, hr⟩ := settleTx_goes hhoused hchart hrow (by rw [ht]; rfl) hsettled hinflow
      rw [Prog.run_bind, transaction, Prog.run_attempt, hr]
      obtain ⟨a, ha⟩ := (announceSettled_neverFails c t).run { w with db := r.2 }
      exact ha
    · rfl

/-! ## Reversals -/

theorem refundLegs_balanced (source : LedgerCode) (t : Transfer) :
    DoubleEntry.Balanced (legs (refundLegs source t)) := by
  simp only [refundLegs]
  rw [legs_append]
  refine (balanced_debit_credit _ _ _).append ?_
  unfold feeLegs
  split
  · exact balanced_debit_credit _ _ _
  · rfl

/-- The ledger accounts of the postings of a refund. -/
theorem refundLegs_charted {t : Transfer} {source : LedgerCode}
    {L : Table LedgerCode LedgerAccount} (hL : Charted L) (hsource : (L.lookup source).isSome)
    (hsender : (L.lookup (.account t.fromAccountId)).isSome) :
    ∀ p ∈ refundLegs source t, (L.lookup p.code).isSome := by
  have hfees := hL .feeRevenue (by decide)
  intro p hp
  rcases List.mem_append.1 hp with hp | hp
  · simp only [List.mem_cons, List.not_mem_nil, or_false] at hp
    rcases hp with rfl | rfl
    · exact hsource
    · exact hsender
  · unfold feeLegs at hp
    split at hp
    · simp only [List.mem_cons, List.not_mem_nil, or_false] at hp
      rcases hp with rfl | rfl
      · exact hfees
      · exact hsender
    · simp at hp

theorem refundSender_goes {t : Transfer} {source : LedgerCode}
    {entry : List PostingInput → JournalInput} {db : Db} (hentry : ∀ ps, (entry ps).postings = ps)
    (hsender : (db.accounts.lookup t.fromAccountId).isSome) (hchart : Charted db.ledgerAccounts)
    (hsource : (db.ledgerAccounts.lookup source).isSome) :
    Tx.Goes (refundSender t source entry) db := by
  refine Tx.goes_bind (Tx.goes_query _) fun sender db₀ h₀ => ?_
  cases h₀
  obtain ⟨acct, hacct⟩ := Option.isSome_iff_exists.1 hsender
  simp only [hacct]
  refine Tx.goes_bind (Tx.goes_ensureAccountLedger _ _) fun _ db₁ h₁ => ?_
  obtain ⟨L, rfl, hL, hledger⟩ := ensureAccountLedger_ok h₁
  refine Tx.goes_bind (Tx.goes_incrementBalance ?_ _) fun _ db₂ h₂ => ?_
  · exact hsender
  obtain ⟨_, -, rfl⟩ := Tx.incrementBalance_ok h₂
  obtain ⟨row, hrow⟩ := Option.isSome_iff_exists.1 hsource
  have hcodes : ∀ p ∈ refundLegs source t, (L.lookup p.code).isSome :=
    refundLegs_charted (hchart.mono hL) (by rw [hL _ row hrow]; rfl) hledger
  refine Tx.goes_bind (Tx.goes_post ?_ ?_ ?_) fun _ _ _ => Tx.goes_pure ()
  · rw [hentry]
    simp [refundLegs]
  · rw [hentry]
    exact refundLegs_balanced source t
  · rw [hentry]
    exact hcodes

theorem goes_flipReversed (id : Option Uuid) (f : Transaction → Transaction) (db : Db) :
    Tx.Goes (flipReversed id f) db := by
  cases id with
  | none => exact Tx.goes_pure ()
  | some id => exact Tx.goes_updateManyTransaction id f

/-- **A reversal goes through** where the sender's account is there, whatever became of the pending
transaction. -/
theorem reverseTx_goes {c : ReverseCall} {t : Transfer} {db : Db}
    (hsender : (db.accounts.lookup t.fromAccountId).isSome) (hchart : Charted db.ledgerAccounts)
    (ht : (db.transfers.lookup c.transferId).isSome)
    (hfresh : db.transactions.lookup c.reversalTxId = none) : Tx.Goes (reverseTx c t) db := by
  refine Tx.goes_bind (refundSender_goes (fun _ => rfl) hsender hchart (hchart .cash (by decide)))
    fun _ db₁ h₁ => ?_
  obtain ⟨hrefunded, hfeed, htransfers⟩ := refundSender_ok (fun _ => rfl) h₁
  simp only at hrefunded hfeed htransfers
  obtain ⟨acct, -, haccounts⟩ := hrefunded.balance
  refine Tx.goes_bind (Tx.goes_createTransaction ?_ ?_) fun _ db₂ h₂ => ?_
  · rw [hfeed]
    exact hfresh
  · rw [haccounts]
    exact isSome_insert hsender _ _
  obtain ⟨-, hdb₂⟩ := Tx.createTransaction_ok h₂
  refine Tx.goes_bind (goes_flipReversed _ _ _) fun _ db₃ h₃ => ?_
  obtain ⟨T, hdb₃, -⟩ := flipReversed_ok h₃
  refine Tx.goes_bind (goes_flipReversed _ _ _) fun _ db₄ h₄ => ?_
  obtain ⟨T', hdb₄, -⟩ := flipReversed_ok h₄
  apply Tx.goes_updateTransfer
  simp only at hdb₂ hdb₃ hdb₄
  rw [hdb₄, hdb₃, hdb₂]
  simp only [htransfers]
  exact ht

theorem afterReverse_neverFails (c : ReverseCall) (t : Transfer) :
    (afterReverse c t).NeverFails := by
  refine Prog.neverFails_bind (Prog.neverFails_read _) fun fresh => ?_
  cases fresh with
  | none => exact Prog.neverFails_pure ()
  | some a =>
    refine Prog.neverFails_bind Prog.neverFails_modify fun _ =>
      Prog.neverFails_bind Prog.neverFails_modify fun _ => ?_
    cases t.pendingTransactionId with
    | none => exact Prog.neverFails_modify
    | some id => exact Prog.neverFails_bind Prog.neverFails_modify fun _ => Prog.neverFails_modify

/-- A reversal of a wire that is not reversed does not throw, and reverses it. -/
theorem reverseWire_goes (me : ℕ) {c : ReverseCall} {t : Transfer} {w : World}
    (ht : w.db.transfers.lookup c.transferId = some t) (hkind : t.kind = .wireOut)
    (hstatus : t.status ≠ .reversed) (hsender : (w.db.accounts.lookup t.fromAccountId).isSome)
    (hchart : Charted w.db.ledgerAccounts)
    (hfresh : w.db.transactions.lookup c.reversalTxId = none) :
    ∃ w', (reverseWire me c).run w = (.ok (), w') ∧
      w'.db.transfers.lookup c.transferId = some (stampReversed c t t) := by
  obtain ⟨r, hr⟩ := reverseTx_goes hsender hchart (by rw [ht]; rfl) hfresh
  have hreversed := reverseTx_ok hr
  have hrow := hreversed.transfers.lookup c.transferId
  rw [if_pos rfl, ht, Option.map_some] at hrow
  obtain ⟨a, ha⟩ := (afterReverse_neverFails c t).run { w with db := r.2 }
  refine ⟨((afterReverse c t).run { w with db := r.2 }).2, ?_, ?_⟩
  · unfold reverseWire
    rw [Prog.run_bind, query, Prog.run_read]
    simp only [ht]
    rw [if_neg (not_not.2 hkind), if_neg hstatus, reverseReadable, Prog.run_bind, transaction,
      Prog.run_attempt, hr]
    exact Prod.ext ha rfl
  · rw [(quiet_afterReverse c t).run]
    exact hrow

/-- There is an unused id. -/
theorem exists_unused {ρ : Type} (t : Table Uuid ρ) : ∃ id, t.lookup id = none := by
  obtain ⟨id, hid⟩ := Infinite.exists_notMem_finset t.keys.toFinset
  refine ⟨id, AList.lookup_eq_none.2 fun hmem => hid ?_⟩
  rw [List.mem_toFinset]
  exact AList.mem_keys.1 hmem

end BankDemo
