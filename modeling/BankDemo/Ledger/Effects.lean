import BankDemo.Ledger.Service
import Mathlib.Algebra.Order.BigOperators.Group.List

/-!
# What transactions do to balances and books

Every transaction that moves money changes the balance of one customer account (`Credited`) and
writes one journal entry (`Booked`). The specifications of the services' transactions are put
together from these two, and what they do to balances, to the net of a ledger code and to the
entries of a source is said here once.
-/

namespace BankDemo.Ledger

/-- The balance of `a` grew by `d`, and no other account row changed. -/
def Credited (a : Uuid) (d : ℤ) (db db' : Db) : Prop :=
  Table.Updated a (fun acct => { acct with balanceCents := acct.balanceCents + d })
    db.accounts db'.accounts

/-- The balance of `a` grew by `d`, or nothing happened to the accounts when there is no `a`. -/
def Credited? (a : Option Uuid) (d : ℤ) (db db' : Db) : Prop :=
  match a with
  | some a => Credited a d db db'
  | none => db'.accounts = db.accounts

/-- One entry was written, with source `src` and postings `ps`. -/
structure Booked (src : JournalSource) (ps : List (Posting LedgerCode)) (db db' : Db) : Prop where
  extends_ : Extends db.ledgerAccounts db'.ledgerAccounts
  covered : ∀ p ∈ ps, (db'.ledgerAccounts.lookup p.code).isSome
  two_le : 2 ≤ ps.length
  balanced : DoubleEntry.Balanced ps
  journal : ∃ e : JournalEntry, e.source = src ∧ e.postings = ps ∧
    db'.journal = db.journal ++ [e]

/-- A debit or credit of `post`, as a posting. -/
def legs (ps : List PostingInput) : List (Posting LedgerCode) := ps.map PostingInput.toPosting

/-! ## Postings in pairs -/

theorem legs_append (ps qs : List PostingInput) : legs (ps ++ qs) = legs ps ++ legs qs :=
  List.map_append

/-- Two postings of `m` against each other. -/
theorem net_pair (x y c : LedgerCode) (m : ℤ) (mx my : Option PostingMeta) :
    DoubleEntry.net (legs [⟨x, .debit, m, mx⟩, ⟨y, .credit, m, my⟩]) c =
      (if y = c then m else 0) - if x = c then m else 0 := by
  have hdebit : (Posting.mk x .debit m).signed = -m := by simp [Posting.signed, Posting.on]
  have hcredit : (Posting.mk y .credit m).signed = m := by simp [Posting.signed, Posting.on]
  simp only [legs, List.map_cons, List.map_nil, DoubleEntry.net_cons, DoubleEntry.net_nil,
    PostingInput.toPosting, hdebit, hcredit]
  split <;> split <;> omega

theorem net_debit_credit (x y c : LedgerCode) (m : ℤ) :
    DoubleEntry.net (legs [debit x m, credit y m]) c =
      (if y = c then m else 0) - if x = c then m else 0 :=
  net_pair x y c m none none

/-- Every posting has a positive amount. -/
def Positive (ps : List (Posting LedgerCode)) : Prop := ∀ p ∈ ps, 0 < p.amountCents

theorem Positive.append {ps qs : List (Posting LedgerCode)} (hp : Positive ps) (hq : Positive qs) :
    Positive (ps ++ qs) := by
  intro p hmem
  rcases List.mem_append.1 hmem with h | h
  · exact hp p h
  · exact hq p h

theorem positive_pair {p q : PostingInput} (hp : 0 < p.amountCents) (hq : 0 < q.amountCents) :
    Positive (legs [p, q]) := by
  intro x hx
  simp only [legs, List.map_cons, List.map_nil, List.mem_cons, List.not_mem_nil, or_false] at hx
  rcases hx with rfl | rfl
  · exact hp
  · exact hq

/-! ## Balances and books -/

theorem balance_of_accounts_eq {db db' : Db} (h : db'.accounts = db.accounts) (x : Uuid) :
    db'.balance x = db.balance x := by
  simp only [Db.balance, h]

theorem Credited.balance {a : Uuid} {d : ℤ} {db db' : Db} (h : Credited a d db db') (x : Uuid) :
    db'.balance x = db.balance x + if x = a then d else 0 := by
  obtain ⟨acct, hacct, hdb'⟩ := h
  simp only [Db.balance, hdb', Table.lookup_insert_ite]
  by_cases hx : x = a
  · subst hx
    simp [hacct]
  · simp [hx]

theorem balance_of_credited? {a : Option Uuid} {d : ℤ} {db db' : Db} (h : Credited? a d db db')
    {x : Uuid} (hx : x ∉ a.toList) : db'.balance x = db.balance x := by
  cases a with
  | none => exact balance_of_accounts_eq h x
  | some a =>
    have hne : x ≠ a := by simpa using hx
    rw [Credited.balance h, if_neg hne, add_zero]

theorem balance_of_credited {a : Uuid} {d : ℤ} {db db' : Db} (h : Credited a d db db') {x : Uuid}
    (hx : x ∉ [a]) : db'.balance x = db.balance x :=
  balance_of_credited? (show Credited? (some a) d db db' from h) hx

/-- What was added to customer accounts, over all accounts whose balance grew. -/
def raised (db db' : Db) : ℤ :=
  (db'.accounts.keys.map fun a => max 0 (db'.balance a - db.balance a)).sum

theorem raised_nonneg (db db' : Db) : 0 ≤ raised db db' := by
  refine List.sum_nonneg fun x hx => ?_
  obtain ⟨a, -, rfl⟩ := List.mem_map.1 hx
  exact le_max_left _ _

theorem raised_of_accounts_eq {db db' : Db} (h : db'.accounts = db.accounts) :
    raised db db' = 0 := by
  refine List.sum_eq_zero fun x hx => ?_
  obtain ⟨a, -, rfl⟩ := List.mem_map.1 hx
  rw [balance_of_accounts_eq h]
  omega

theorem Credited.raised {a : Uuid} {d : ℤ} {db db' : Db} (h : Credited a d db db') :
    raised db db' = max 0 d := by
  obtain ⟨acct, -, hdb'⟩ := id h
  have hrest : ((db.accounts.keys.erase a).map fun x =>
      max 0 (db'.balance x - db.balance x)).sum = 0 := by
    refine List.sum_eq_zero fun y hy => ?_
    obtain ⟨x, hx, rfl⟩ := List.mem_map.1 hy
    have hxa := (db.accounts.keys_nodup.mem_erase_iff.1 hx).1
    rw [h.balance, if_neg hxa]
    omega
  rw [Ledger.raised, hdb', AList.keys_insert, List.map_cons, List.sum_cons, hrest, h.balance,
    if_pos rfl]
  omega

theorem postings_append {db db' : Db} {e : JournalEntry} (h : db'.journal = db.journal ++ [e]) :
    db'.postings = db.postings ++ e.postings := by
  simp [Db.postings, h]

theorem net_of_journal_eq {db db' : Db} (h : db'.journal = db.journal) (c : LedgerCode) :
    db'.net c = db.net c := by
  simp only [Db.net, Db.postings, h]

theorem Booked.net {src : JournalSource} {ps : List (Posting LedgerCode)} {db db' : Db}
    (h : Booked src ps db db') (c : LedgerCode) : db'.net c = db.net c + DoubleEntry.net ps c := by
  obtain ⟨e, -, rfl, hj⟩ := h.journal
  rw [Db.net, postings_append hj, DoubleEntry.net_append, Db.net]

theorem Booked.entriesOf {src src' : JournalSource} {ps : List (Posting LedgerCode)} {db db' : Db}
    (h : Booked src ps db db') : (db'.entriesOf src').length =
      (db.entriesOf src').length + if src = src' then 1 else 0 := by
  obtain ⟨e, rfl, -, hj⟩ := h.journal
  rw [Db.entriesOf, hj, List.filter_append, List.length_append, Db.entriesOf]
  by_cases hs : e.source = src' <;> simp [hs]

theorem Booked.entriesOf_ne {src src' : JournalSource} {ps : List (Posting LedgerCode)}
    {db db' : Db} (h : Booked src ps db db') (hne : src ≠ src') :
    db'.entriesOf src' = db.entriesOf src' := by
  obtain ⟨e, rfl, -, hj⟩ := h.journal
  rw [Db.entriesOf, hj, List.filter_append, Db.entriesOf]
  simp [hne]

theorem Booked.entriesOf_self {src : JournalSource} {ps : List (Posting LedgerCode)} {db db' : Db}
    (h : Booked src ps db db') : db'.entriesOf src ≠ db.entriesOf src := by
  intro heq
  have hlength := congrArg List.length heq
  rw [h.entriesOf, if_pos rfl] at hlength
  omega

/-- Later changes outside the books. -/
theorem Booked.of_eq {src : JournalSource} {ps : List (Posting LedgerCode)} {db db₁ db' : Db}
    (h : Booked src ps db db₁) (hledger : db'.ledgerAccounts = db₁.ledgerAccounts)
    (hjournal : db'.journal = db₁.journal) : Booked src ps db db' := by
  refine ⟨?_, ?_, h.two_le, h.balanced, ?_⟩
  · rw [hledger]
    exact h.extends_
  · rw [hledger]
    exact h.covered
  · rw [hjournal]
    exact h.journal

/-- A `post` after changes that touch neither the journal nor, except by adding, the chart. -/
theorem Posted.booked {input : JournalInput} {db db₁ db₂ : Db} (h : Posted input db₁ db₂)
    (hext : Extends db.ledgerAccounts db₁.ledgerAccounts) (hjournal : db₁.journal = db.journal) :
    Booked input.source (legs input.postings) db db₂ := by
  obtain ⟨L, hL, hps, rfl⟩ := h.write
  refine ⟨hext.trans hL, ?_, ?_, h.balanced, ?_⟩
  · intro p hp
    obtain ⟨q, hq, rfl⟩ := List.mem_map.1 hp
    exact hps q hq
  · rw [legs, List.length_map]
    exact h.two_le
  · exact ⟨⟨input.description, input.occurredAt, input.source, input.referenceId,
      legs input.postings⟩, rfl, rfl, by rw [← hjournal]; rfl⟩

end BankDemo.Ledger
