import BankDemo.System.Rows

/-!
# Balances and books

Every change that moves the balance of a customer account moves the sub-ledger of the account by
the same amount (`Change.tied`), as long as fees are not negative: the postings of a fee are
written for positive fees only, while the balance moves by amount and fee whatever their signs.
Every entry that is written has two postings at least, all positive, and balances
(`Change.bookChange`).

* `balance_eq_subledger`: in every interleaving, balances and sub-ledgers have moved alike.
* `books_balanced`: in every interleaving, every entry is in order and the trial balance is zero.
-/

namespace BankDemo

open Ledger Transfers Admin

/-! ## Balances and sub-ledgers -/

/-- Every balance moved as its sub-ledger did. -/
def Tied (db db' : Db) : Prop :=
  ∀ a, db'.balance a - db.balance a = db'.net (.account a) - db.net (.account a)

theorem Tied.refl (db : Db) : Tied db db := fun a => by omega

theorem Tied.trans {db₁ db₂ db₃ : Db} (h : Tied db₁ db₂) (h' : Tied db₂ db₃) : Tied db₁ db₃ := by
  intro a
  have ha := h a
  have ha' := h' a
  omega

theorem tied_of_credited {a : Uuid} {d : ℤ} {src : JournalSource} {ps : List (Posting LedgerCode)}
    {db db' : Db} (hcredited : Credited a d db db') (hbooked : Booked src ps db db')
    (hnet : ∀ x, DoubleEntry.net ps (.account x) = if x = a then d else 0) : Tied db db' := by
  intro x
  rw [hcredited.balance, hbooked.net, hnet]
  omega

theorem tied_of_restamped {id : Uuid} {f : Transfer → Transfer} {db db' : Db}
    (h : Restamped id f db db') : Tied db db' := by
  obtain ⟨T, rfl, -⟩ := h
  exact Tied.refl db

theorem tied_of_settled {pc : ProcessCall} {t : Transfer} {db db' : Db} (h : Settled pc t db db') :
    Tied db db' := by
  have hbalance := h.balance
  cases hc : creditedAccount t with
  | none =>
    rw [hc] at hbalance
    intro x
    rw [balance_of_accounts_eq hbalance, h.booked.net, net_settleLegs, hc]
    simp
  | some a =>
    rw [hc] at hbalance
    refine tied_of_credited hbalance h.booked fun x => ?_
    rw [net_settleLegs, hc]
    simp [eq_comm]

theorem tied_of_refunded {t : Transfer} {src : JournalSource} {source : LedgerCode} {db db' : Db}
    (h : Refunded t src source db db') (hfee : 0 ≤ t.feeCents)
    (hs : ∀ a, source ≠ .account a) : Tied db db' :=
  tied_of_credited h.balance h.booked fun x => net_refundLegs hfee (hs x)

/-- A change ties balances and sub-ledgers, when no fee that was seen or quoted is negative. -/
theorem Change.tied {env : Env} {h : List World} {db db' : Db} {c : Call}
    (hchange : Change env h db db' c) (hcfg : env.cfg.FeesNonneg)
    (hfees : ∀ id t, Seen h id t → 0 ≤ t.feeCents) : Tied db db' := by
  cases hchange with
  | quiet hdb =>
    rw [hdb]
    exact Tied.refl db
  | initiated hadmitted _ hinit =>
    obtain ⟨s, fx, toAccount, -, hvalid, rfl⟩ := hadmitted.row
    have hfee := hcfg _ _ _ _ hvalid
    exact tied_of_credited hinit.balance hinit.booked fun x => net_pendingLegs hfee x
  | settled _ _ _ hsettled => exact tied_of_settled hsettled
  | reopened _ _ _ hreset => exact tied_of_restamped hreset
  | approved _ _ _ _ hstamp => exact tied_of_restamped hstamp
  | rejected _ hseen _ _ hrej =>
    exact tied_of_refunded hrej.refunded (hfees _ _ hseen) fun _ => by simp
  | reversed hseen _ _ hrev =>
    exact tied_of_refunded hrev.refunded (hfees _ _ hseen) fun _ => by simp
  | failed _ hstamp => exact tied_of_restamped hstamp
  | @adjusted _ a d _ _ hadj =>
    by_cases hd : d = 0
    · obtain ⟨haccounts, -, hjournal⟩ := hadj.zero hd
      intro x
      rw [balance_of_accounts_eq haccounts, net_of_journal_eq hjournal]
      omega
    · obtain ⟨hcredited, hbooked⟩ := hadj.nonzero hd
      exact tied_of_credited hcredited hbooked fun x => net_compensatingLegs a x d

theorem fees_nonneg {env : Env} {w₀ : World} {tr : List (Step World Call)}
    (hsteps : (system env).Steps w₀ tr) (hcfg : env.cfg.FeesNonneg)
    (hstart : ∀ id t, w₀.db.transfers.lookup id = some t → 0 ≤ t.feeCents) :
    ∀ id t, Seen (visited w₀ tr) id t → 0 ≤ t.feeCents := by
  refine steps_seen_terms hsteps (fun t t' hterms ht => ?_) (fun ic t hadmitted => ?_) hstart
  · rw [fee_of_terms hterms]
    exact ht
  · obtain ⟨s, fx, toAccount, -, hvalid, rfl⟩ := hadmitted.row
    exact hcfg _ _ _ _ hvalid

/-- **Balance equals sub-ledger.** Under a configuration that never quotes a negative fee, in every
interleaving of the calls of the system and in every state visited, each account's balance has
moved since the start by exactly what the credits minus the debits on its sub-ledger have. -/
theorem balance_eq_subledger (env : Env) (hcfg : env.cfg.FeesNonneg) (w₀ : World)
    (hstart : ∀ id t, w₀.db.transfers.lookup id = some t → 0 ≤ t.feeCents)
    (tr : List (Step World Call)) (P : Pool World Error Answer Call)
    (hrun : Run (program env) (fun _ => True) w₀ tr P) :
    ∀ w ∈ visited w₀ tr, ∀ a, w.db.balance a - w₀.db.balance a =
      w.db.net (accountSubLedgerCode a) - w₀.db.net (accountSubLedgerCode a) := by
  have hfees := fees_nonneg hrun.steps hcfg hstart
  refine steps_invariant (I := fun h => ∀ w ∈ h, Tied w₀.db w.db) hrun.steps ?_ ?_
  · intro w hw
    obtain rfl := List.mem_singleton.1 hw
    exact Tied.refl _
  · intro x _ past hpast hI hchange w hw
    rcases List.mem_cons.1 hw with rfl | hw
    · exact (hI x.pre List.mem_cons_self).trans
        (hchange.tied hcfg fun id t ht => hfees id t (ht.mono hpast))
    · exact hI w hw

/-- A payment of 20.00 from Ann to Bob and its settlement. -/
def samplePayment : List (Choice Call) :=
  oneByOne [.initiate (samplePay .p2p 20 100 2000 false), .process (sampleSettle 100 200)]

theorem balance_eq_subledger_payment :
    (exec (program sampleEnv) sampleWorld samplePayment).2.state.db.balance 20 = 2000 ∧
      ∀ w ∈ visited sampleWorld (exec (program sampleEnv) sampleWorld samplePayment).1, ∀ a,
        w.db.balance a - sampleWorld.db.balance a =
          w.db.net (accountSubLedgerCode a) - sampleWorld.db.net (accountSubLedgerCode a) :=
  ⟨by decide +kernel, balance_eq_subledger sampleEnv (feesNonneg_of_feeMin (by decide)) sampleWorld
    (fun id t ht => absurd ht (sample_no_transfers id t)) _ _
    (exec_run samplePayment fun _ _ => trivial)⟩

/-- A configuration that pays customers for instant transfers. -/
def rebateEnv : Env :=
  { sampleEnv with cfg := { TransferConfig.default with feeBps := -1000, feeMin := -100 } }

/-- With a negative fee, the balance falls by amount and fee, the sub-ledger by the amount. -/
theorem balance_ne_subledger_rebate :
    ¬ ∀ (env : Env) (w₀ : World), (∀ id, w₀.db.transfers.lookup id = none) →
      ∀ (tr : List (Step World Call)) (P : Pool World Error Answer Call),
        Run (program env) (fun _ => True) w₀ tr P → ∀ w ∈ visited w₀ tr, ∀ a,
          w.db.balance a - w₀.db.balance a =
            w.db.net (accountSubLedgerCode a) - w₀.db.net (accountSubLedgerCode a) := by
  intro h
  have hrun : Run (program rebateEnv) (fun _ => True) sampleWorld _ _ :=
    exec_run (oneByOne [.initiate (samplePay .p2p 20 100 1000 true)]) fun _ _ => trivial
  obtain ⟨past, hpast⟩ := hrun.visited_eq
  have hlast := h rebateEnv sampleWorld (fun _ => rfl) _ _ hrun _
    (by rw [hpast]; exact List.mem_cons_self) 10
  revert hlast
  decide

/-! ## Entries -/

/-- An entry in order: two postings at least, all positive, debits equal to credits. -/
structure InOrder (e : JournalEntry) : Prop where
  two_le : 2 ≤ e.postings.length
  positive : Positive e.postings
  balanced : DoubleEntry.Balanced e.postings

/-- What a change does to the books: nothing, or one entry in order with the ledger accounts it
needs. -/
inductive BookChange (db db' : Db) : Prop
  | same (hledger : db'.ledgerAccounts = db.ledgerAccounts) (hjournal : db'.journal = db.journal)
  | entry {e : JournalEntry} (horder : InOrder e) (hjournal : db'.journal = db.journal ++ [e])
      (hextends : Extends db.ledgerAccounts db'.ledgerAccounts)
      (hcovered : ∀ p ∈ e.postings, (db'.ledgerAccounts.lookup p.code).isSome)

theorem bookChange_of_booked {src : JournalSource} {ps : List (Posting LedgerCode)} {db db' : Db}
    (h : Booked src ps db db') (hpositive : Positive ps) : BookChange db db' := by
  obtain ⟨e, -, rfl, hjournal⟩ := h.journal
  exact .entry ⟨h.two_le, hpositive, h.balanced⟩ hjournal h.extends_ h.covered

theorem bookChange_of_restamped {id : Uuid} {f : Transfer → Transfer} {db db' : Db}
    (h : Restamped id f db db') : BookChange db db' := by
  obtain ⟨T, rfl, -⟩ := h
  exact .same rfl rfl

/-- A change leaves the books in order, when amounts that were seen or quoted are positive. -/
theorem Change.bookChange {env : Env} {h : List World} {db db' : Db} {c : Call}
    (hchange : Change env h db db' c) (hcfg : 1 ≤ env.cfg.minCents)
    (hamounts : ∀ id t, Seen h id t → 0 < t.amountCents) : BookChange db db' := by
  cases hchange with
  | quiet hdb =>
    subst hdb
    exact .same rfl rfl
  | initiated hadmitted _ hinit =>
    obtain ⟨s, fx, toAccount, -, hvalid, rfl⟩ := hadmitted.row
    have hmin := quote_min hvalid
    exact bookChange_of_booked hinit.booked (positive_pendingLegs (show 0 < s by omega))
  | settled _ hseen _ hsettled =>
    exact bookChange_of_booked hsettled.booked (positive_settleLegs (hamounts _ _ hseen))
  | reopened _ _ _ hreset => exact bookChange_of_restamped hreset
  | approved _ _ _ _ hstamp => exact bookChange_of_restamped hstamp
  | rejected _ hseen _ _ hrej =>
    exact bookChange_of_booked hrej.refunded.booked (positive_refundLegs (hamounts _ _ hseen))
  | reversed hseen _ _ hrev =>
    exact bookChange_of_booked hrev.refunded.booked (positive_refundLegs (hamounts _ _ hseen))
  | failed _ hstamp => exact bookChange_of_restamped hstamp
  | @adjusted _ a d _ _ hadj =>
    by_cases hd : d = 0
    · obtain ⟨-, hledger, hjournal⟩ := hadj.zero hd
      exact .same hledger hjournal
    · exact bookChange_of_booked (hadj.nonzero hd).2 (positive_compensatingLegs hd)

/-- The books are in order: so are the entries, and the chart has the codes they use. -/
structure BooksInOrder (db : Db) : Prop where
  entries : ∀ e ∈ db.journal, InOrder e
  covered : ∀ e ∈ db.journal, ∀ p ∈ e.postings, (db.ledgerAccounts.lookup p.code).isSome

theorem BookChange.inOrder {db db' : Db} (h : BookChange db db') (hbooks : BooksInOrder db) :
    BooksInOrder db' := by
  cases h with
  | same hledger hjournal =>
    refine ⟨?_, ?_⟩
    · rw [hjournal]
      exact hbooks.entries
    · rw [hjournal, hledger]
      exact hbooks.covered
  | @entry e horder hjournal hextends hcovered =>
    have hmem : ∀ e' ∈ db'.journal, e' ∈ db.journal ∨ e' = e := by
      intro e' he'
      rw [hjournal] at he'
      simpa using he'
    refine ⟨fun e' he' => ?_, fun e' he' p hp => ?_⟩
    · rcases hmem e' he' with he' | rfl
      · exact hbooks.entries e' he'
      · exact horder
    · rcases hmem e' he' with he' | rfl
      · obtain ⟨row, hrow⟩ := Option.isSome_iff_exists.1 (hbooks.covered e' he' p hp)
        rw [hextends _ _ hrow]
        rfl
      · exact hcovered p hp

/-- The trial balance of books in order is zero. -/
theorem BooksInOrder.trial_balance {db : Db} (h : BooksInOrder db) :
    computeAndReport db = (true, 0) := by
  have hcover : ∀ ps ∈ db.journal.map JournalEntry.postings, ∀ p ∈ ps,
      p.code ∈ db.ledgerAccounts.keys := by
    intro ps hps p hp
    obtain ⟨e, he, rfl⟩ := List.mem_map.1 hps
    exact AList.mem_keys.1 (AList.lookup_isSome.1 (h.covered e he p hp))
  have hbalanced : ∀ ps ∈ db.journal.map JournalEntry.postings, DoubleEntry.Balanced ps := by
    intro ps hps
    obtain ⟨e, he, rfl⟩ := List.mem_map.1 hps
    exact (h.entries e he).balanced
  have hzero := DoubleEntry.trial_balance db.ledgerAccounts.keys_nodup hcover hbalanced
  have hdelta : ((trialBalanceRows db).map TrialBalanceRow.debits).sum -
      ((trialBalanceRows db).map TrialBalanceRow.credits).sum = 0 := by
    rw [← hzero]
    simp only [trialBalanceRows, List.map_map, AList.keys, List.keys, Db.postings]
    rfl
  simp [computeAndReport, hdelta]

theorem amounts_pos {env : Env} {w₀ : World} {tr : List (Step World Call)}
    (hsteps : (system env).Steps w₀ tr) (hcfg : 1 ≤ env.cfg.minCents)
    (hstart : ∀ id t, w₀.db.transfers.lookup id = some t → 0 < t.amountCents) :
    ∀ id t, Seen (visited w₀ tr) id t → 0 < t.amountCents := by
  refine steps_seen_terms hsteps (fun t t' hterms ht => ?_) (fun ic t hadmitted => ?_) hstart
  · rw [amount_of_terms hterms]
    exact ht
  · obtain ⟨s, fx, toAccount, -, hvalid, rfl⟩ := hadmitted.row
    have hmin := quote_min hvalid
    exact show 0 < s by omega

/-- A transaction in which `post` throws, whatever was done before, leaves the world as it was. -/
theorem post_error_rolls_back {α β : Type} {me : ℕ} {rows : List Uuid} {before : Tx α}
    {input : α → JournalInput} {after : α → ℕ → Tx β} {w : World} {a : α} {db : Db} {e : Error}
    (hbefore : before w.db = .ok (a, db)) (hpost : post (input a) db = .error e) :
    (transaction me rows (do
      let a ← before
      let id ← post (input a)
      after a id)).run w = (.error e, w) := by
  have hbody : (do
      let a ← before
      let id ← post (input a)
      after a id : Tx β) w.db = .error e := by
    simp only [bind, StateT.bind, hbefore, Except.bind, hpost]
  rw [run_transaction, hbody]

/-- **Global double entry.** With a minimum of one cent at least, in every interleaving of the
calls of the system, in every state visited: every journal entry has at least two postings, all of
them positive, and its debits equal its credits; the trial balance is balanced, with delta zero.
The chart of accounts changes only together with a new entry, in one step, and a transaction in
which `post` throws leaves nothing behind. -/
theorem books_balanced (env : Env) (hcfg : 1 ≤ env.cfg.minCents) (w₀ : World)
    (hbooks : BooksInOrder w₀.db)
    (hstart : ∀ id t, w₀.db.transfers.lookup id = some t → 0 < t.amountCents)
    (tr : List (Step World Call)) (P : Pool World Error Answer Call)
    (hrun : Run (program env) (fun _ => True) w₀ tr P) :
    (∀ w ∈ visited w₀ tr, (∀ e ∈ w.db.journal, 2 ≤ e.postings.length ∧
        (∀ p ∈ e.postings, 0 < p.amountCents) ∧
        DoubleEntry.sideSum .debit e.postings = DoubleEntry.sideSum .credit e.postings) ∧
      computeAndReport w.db = (true, 0)) ∧
    (∀ x ∈ tr, (x.post.db.ledgerAccounts = x.pre.db.ledgerAccounts ∧
        x.post.db.journal = x.pre.db.journal) ∨
      ∃ e, x.post.db.journal = x.pre.db.journal ++ [e]) ∧
    ∀ (α β : Type) (me : ℕ) (rows : List Uuid) (before : Tx α) (input : α → JournalInput)
      (after : α → ℕ → Tx β) (w : World) (a : α) (db : Db) (e : Error),
      before w.db = .ok (a, db) → post (input a) db = .error e →
        (transaction me rows (do
          let a ← before
          let id ← post (input a)
          after a id)).run w = (.error e, w) := by
  have hamounts := amounts_pos hrun.steps hcfg hstart
  refine ⟨fun w hw => ?_, fun x hx => ?_, ?_⟩
  · have hinv : ∀ w ∈ visited w₀ tr, BooksInOrder w.db := by
      refine steps_invariant (I := fun h => ∀ w ∈ h, BooksInOrder w.db) hrun.steps ?_ ?_
      · intro w hw
        obtain rfl := List.mem_singleton.1 hw
        exact hbooks
      · intro x _ past hpast hI hchange w hw
        rcases List.mem_cons.1 hw with rfl | hw
        · have hbook := hchange.bookChange hcfg fun id t ht => hamounts id t (ht.mono hpast)
          exact hbook.inOrder (hI x.pre List.mem_cons_self)
        · exact hI w hw
    have horder := hinv w hw
    exact ⟨fun e he => ⟨(horder.entries e he).two_le, (horder.entries e he).positive,
      (horder.entries e he).balanced⟩, horder.trial_balance⟩
  · obtain ⟨past, hpast, hchange⟩ := step_change hrun.steps hx
    cases hchange.bookChange hcfg fun id t ht => hamounts id t (ht.mono hpast) with
    | same hledger hjournal => exact .inl ⟨hledger, hjournal⟩
    | entry _ hjournal _ _ => exact .inr ⟨_, hjournal⟩
  · intro α β me rows before input after w a db e hbefore hpost
    exact post_error_rolls_back hbefore hpost

theorem books_balanced_payment :
    (exec (program sampleEnv) sampleWorld samplePayment).2.state.db.journal.length = 2 ∧
      ∀ w ∈ visited sampleWorld (exec (program sampleEnv) sampleWorld samplePayment).1,
        computeAndReport w.db = (true, 0) := by
  refine ⟨by decide +kernel, fun w hw => ?_⟩
  have hbooks : BooksInOrder sampleWorld.db :=
    ⟨fun e he => (List.not_mem_nil he).elim, fun e he => (List.not_mem_nil he).elim⟩
  exact ((books_balanced sampleEnv (by decide) sampleWorld hbooks
    (fun id t ht => absurd ht (sample_no_transfers id t)) _ _
    (exec_run samplePayment fun _ _ => trivial)).1 w hw).2

end BankDemo
