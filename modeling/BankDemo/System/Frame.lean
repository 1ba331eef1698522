import BankDemo.System.Calls

/-!
# What the transfer services leave alone

The calls of the system move balances and write feed, overrides, journal and transfers. All else
they leave as it is (`Framed`): the other tables, every column of an account but its balance, and
the ledger accounts there are. Of the feed they make the rows they have drawn ids for, and only
`delete` takes a row away. That holds for each single action of a call (`program_confined`), so it
holds for the steps of every run, and for a call that another service makes on its way.
-/

namespace BankDemo

open Ledger Transfers Admin

/-! ## The frame -/

/-- The tables that moving money does not write. -/
def Db.rest (db : Db) : Db :=
  { db with
    accounts := ∅
    transactions := ∅
    overrides := ∅
    ledgerAccounts := ∅
    journal := []
    transfers := ∅ }

/-- An account without its balance. -/
def Account.terms (a : Account) : Account := { a with balanceCents := 0 }

/-- Nothing but money was moved; of the feed, only rows of `gone` went and only rows of `made`
came, and the others stayed with their accounts. -/
structure Framed (gone made : List Uuid) (db db' : Db) : Prop where
  rest : db'.rest = db.rest
  accounts : ∀ a, (db'.accounts.lookup a).map Account.terms =
    (db.accounts.lookup a).map Account.terms
  chart : Extends db.ledgerAccounts db'.ledgerAccounts
  kept : ∀ p, p ∉ gone → (db.transactions.lookup p).isSome → (db'.transactions.lookup p).isSome
  origin : ∀ p row', p ∉ made → db'.transactions.lookup p = some row' →
    ∃ row, db.transactions.lookup p = some row ∧ row'.accountId = row.accountId

section Framed

variable {gone made : List Uuid} {db db' : Db}

theorem Framed.refl (db : Db) : Framed gone made db db :=
  ⟨rfl, fun _ => rfl, .refl _, fun _ _ h => h, fun _ row _ h => ⟨row, h, rfl⟩⟩

theorem Framed.trans {db₁ db₂ db₃ : Db} (h : Framed gone made db₁ db₂)
    (h' : Framed gone made db₂ db₃) : Framed gone made db₁ db₃ where
  rest := h'.rest.trans h.rest
  accounts := fun a => (h'.accounts a).trans (h.accounts a)
  chart := h.chart.trans h'.chart
  kept := fun p hp hsome => h'.kept p hp (h.kept p hp hsome)
  origin := by
    intro p row₃ hp h₃
    obtain ⟨row₂, h₂, ha₂⟩ := h'.origin p row₃ hp h₃
    obtain ⟨row₁, h₁, ha₁⟩ := h.origin p row₂ hp h₂
    exact ⟨row₁, h₁, ha₂.trans ha₁⟩

theorem Framed.column {α : Type} (h : Framed gone made db db') (f : Db → α)
    (hf : ∀ db, f db.rest = f db) : f db' = f db := by
  rw [← hf db', h.rest, hf db]

theorem Framed.paymentRequests (h : Framed gone made db db') :
    db'.paymentRequests = db.paymentRequests :=
  h.column Db.paymentRequests fun _ => rfl

theorem Framed.goals (h : Framed gone made db db') : db'.goals = db.goals :=
  h.column Db.goals fun _ => rfl

theorem Framed.roundUps (h : Framed gone made db db') : db'.roundUps = db.roundUps :=
  h.column Db.roundUps fun _ => rfl

theorem Framed.checkDeposits (h : Framed gone made db db') : db'.checkDeposits = db.checkDeposits :=
  h.column Db.checkDeposits fun _ => rfl

/-- The owners of the accounts stay. -/
theorem Framed.userId (h : Framed gone made db db') (a : Uuid) :
    (db'.accounts.lookup a).map Account.userId = (db.accounts.lookup a).map Account.userId := by
  have huser : ∀ x : Option Account, x.map Account.userId =
      (x.map Account.terms).map Account.userId := by
    intro x
    cases x <;> rfl
  rw [huser (db'.accounts.lookup a), h.accounts a, ← huser]

end Framed

/-! ## Transactions -/

/-- The transaction moves nothing but money, and takes and makes only these rows of the feed. -/
def Tx.Confined {α : Type} (gone made : List Uuid) (body : Tx α) : Prop :=
  ∀ db r, body db = .ok r → Framed gone made db r.2

namespace Tx

variable {α β : Type} {gone made : List Uuid}

theorem confined_pure (a : α) : Confined gone made (pure a : Tx α) := by
  intro db r h
  obtain rfl := tx_pure_ok.1 h
  exact .refl db

theorem confined_throw (e : Error) : Confined gone made (throw e : Tx α) :=
  fun _ _ h => absurd h tx_throw_ok

theorem confined_query (f : Db → α) : Confined gone made (query f) := by
  intro db r h
  cases h
  exact .refl db

theorem confined_bind {x : Tx α} {f : α → Tx β} (hx : Confined gone made x)
    (hf : ∀ a, Confined gone made (f a)) : Confined gone made (x >>= f) := by
  intro db r h
  obtain ⟨a, db₁, h₁, h₂⟩ := tx_bind_ok.1 h
  exact (hx db _ h₁).trans (hf a db₁ r h₂)

theorem confined_incrementBalance (a : Uuid) (d : ℤ) :
    Confined gone made (incrementBalance a d) := by
  intro db r h
  obtain ⟨acct, hacct, hr⟩ := incrementBalance_ok h
  rw [hr]
  refine ⟨rfl, fun x => ?_, .refl _, fun _ _ h => h, fun _ row _ h => ⟨row, h, rfl⟩⟩
  rw [Table.lookup_insert_ite]
  split
  · rename_i hx
    rw [hx, hacct]
    rfl
  · rfl

/-- A transaction that only writes overrides and transfers. -/
theorem confined_of_eq {body : Tx α} (h : ∀ db r, body db = .ok r →
    ∃ O X, r.2 = { db with overrides := O, transfers := X }) : Confined gone made body := by
  intro db r hr
  obtain ⟨O, X, hdb⟩ := h db r hr
  rw [hdb]
  exact ⟨rfl, fun _ => rfl, .refl _, fun _ _ h => h, fun _ row _ h => ⟨row, h, rfl⟩⟩

/-- A transaction that only writes the feed, and there takes and makes these rows. -/
theorem confined_of_feed {body : Tx α} (h : ∀ db r, body db = .ok r →
    ∃ T, r.2 = { db with transactions := T } ∧
      (∀ p, p ∉ gone → (db.transactions.lookup p).isSome → (T.lookup p).isSome) ∧
      ∀ p row', p ∉ made → T.lookup p = some row' →
        ∃ row, db.transactions.lookup p = some row ∧ row'.accountId = row.accountId) :
    Confined gone made body := by
  intro db r hr
  obtain ⟨T, hdb, hkept, horigin⟩ := h db r hr
  rw [hdb]
  exact ⟨rfl, fun _ => rfl, .refl _, hkept, horigin⟩

theorem confined_createTransaction {id : Uuid} (hid : id ∈ made) (row : Transaction) :
    Confined gone made (createTransaction id row) := by
  refine confined_of_feed fun db r h => ⟨_, (createTransaction_ok h).2, ?_, ?_⟩
  · intro p _ hsome
    rw [Table.lookup_insert_ite]
    split
    · rfl
    · exact hsome
  · intro p row' hp hrow'
    have hne : p ≠ id := by
      rintro rfl
      exact hp hid
    rw [Table.lookup_insert_ite, if_neg hne] at hrow'
    exact ⟨row', hrow', rfl⟩

/-- A statement that changes a row of the feed, but not its account. -/
theorem confined_of_map {body : Tx α} (id : Uuid) {f : Transaction → Transaction}
    (hf : ∀ row, (f row).accountId = row.accountId) (h : ∀ db r, body db = .ok r →
    ∃ T, r.2 = { db with transactions := T } ∧ ∀ p, T.lookup p =
      if p = id then (db.transactions.lookup p).map f else db.transactions.lookup p) :
    Confined gone made body := by
  refine confined_of_feed fun db r hr => ?_
  obtain ⟨T, hdb, hT⟩ := h db r hr
  refine ⟨T, hdb, fun p _ hsome => ?_, fun p row' _ hrow' => ?_⟩
  · rw [hT]
    split
    · rw [Option.isSome_map]
      exact hsome
    · exact hsome
  · rw [hT] at hrow'
    split at hrow'
    · obtain ⟨row, hrow, rfl⟩ := Option.map_eq_some_iff.1 hrow'
      exact ⟨row, hrow, hf row⟩
    · exact ⟨row', hrow', rfl⟩

theorem confined_updateTransaction? (id : Option Uuid) {f : Transaction → Transaction}
    (hf : ∀ row, (f row).accountId = row.accountId) :
    Confined gone made (updateTransaction? id f) := by
  cases id with
  | none => exact confined_pure ()
  | some id =>
    refine confined_of_map id hf fun db r h => ?_
    obtain ⟨row, hrow, hr⟩ := updateTransaction_ok h
    exact ⟨_, hr, Table.Updated.lookup ⟨row, hrow, rfl⟩⟩

theorem confined_updateTransfer (id : Uuid) (f : Transfer → Transfer) :
    Confined gone made (updateTransfer id f) := by
  refine confined_of_eq fun db r h => ?_
  obtain ⟨row, -, hr⟩ := updateTransfer_ok h
  exact ⟨_, _, hr⟩

theorem confined_executeUpdateTransfer (id : Uuid) (f : Transfer → Transfer) :
    Confined gone made (executeUpdateTransfer id f) := by
  refine confined_of_eq fun db r h => ?_
  obtain ⟨X, hr, -⟩ := executeUpdateTransfer_ok h
  exact ⟨_, X, hr⟩

theorem confined_createTransfer (id : Uuid) (row : Transfer) :
    Confined gone made (createTransfer id row) :=
  confined_of_eq fun _ _ h => ⟨_, _, (createTransfer_ok h).2.2⟩

theorem confined_upsertOverride (id : Uuid) (f : TransactionOverride → TransactionOverride)
    (o : TransactionOverride) : Confined gone made (upsertOverride id f o) :=
  confined_of_eq fun _ _ h => ⟨_, _, upsertOverride_row h⟩

theorem confined_deleteOverride (id : Uuid) : Confined gone made (deleteOverride id) :=
  confined_of_eq fun _ _ h => ⟨_, _, deleteOverride_ok h⟩

theorem confined_deleteTransaction {id : Uuid} (hid : id ∈ gone) :
    Confined gone made (deleteTransaction id) := by
  refine confined_of_feed fun db r h => ⟨_, (deleteTransaction_ok h).2, ?_, ?_⟩
  · intro p hp hsome
    have hne : p ≠ id := by
      rintro rfl
      exact hp hid
    rw [AList.lookup_erase_ne hne]
    exact hsome
  · intro p row' _ hrow'
    by_cases hp : p = id
    · rw [hp, AList.lookup_erase] at hrow'
      cases hrow'
    · rw [AList.lookup_erase_ne hp] at hrow'
      exact ⟨row', hrow', rfl⟩

theorem confined_ensureAccountLedger (a u : Uuid) :
    Confined gone made (ensureAccountLedger a u) := by
  intro db r h
  obtain ⟨L, hr, hL, -⟩ := ensureAccountLedger_ok h
  rw [hr]
  exact ⟨rfl, fun _ => rfl, hL, fun _ _ h => h, fun _ row _ h => ⟨row, h, rfl⟩⟩

theorem confined_post (input : JournalInput) : Confined gone made (post input) := by
  intro db r h
  obtain ⟨L, hL, -, hr⟩ := (post_ok h).write
  rw [hr]
  exact ⟨rfl, fun _ => rfl, hL, fun _ _ h => h, fun _ row _ h => ⟨row, h, rfl⟩⟩

theorem confined_ensureDestination (toAccount : Option (Uuid × Account)) :
    Confined gone made (ensureDestination toAccount) := by
  cases toAccount with
  | none => exact confined_pure ()
  | some a => exact confined_ensureAccountLedger a.1 a.2.userId

theorem confined_pendingTx (c : InitiateCall) (hc : c.pendingTxId ∈ made) (t : Transfer)
    (fromAccount : Account) (toAccount : Option (Uuid × Account)) (fx : Option FxConversion)
    (description : String) :
    Confined gone made (pendingTx c t fromAccount toAccount fx description) := by
  refine confined_bind (confined_ensureAccountLedger _ _) fun _ => ?_
  refine confined_bind (confined_ensureDestination _) fun _ => ?_
  refine confined_bind (confined_post _) fun _ => ?_
  refine confined_bind (confined_createTransaction hc _) fun _ => ?_
  refine confined_bind (confined_incrementBalance _ _) fun _ => ?_
  exact confined_bind (confined_createTransfer _ _) fun _ => confined_pure t

theorem confined_settlePostings (c : ProcessCall) (hsettled : c.settledTxId ∈ made)
    (hinflow : c.inflowTxId ∈ made) (t : Transfer) (sender : Account) :
    Confined gone made (settlePostings c t sender) := by
  unfold settlePostings
  split
  · refine confined_bind (confined_query _) fun dest => ?_
    cases dest with
    | none => exact confined_throw _
    | some dest =>
      refine confined_bind (confined_ensureAccountLedger _ _) fun _ => ?_
      refine confined_bind (confined_incrementBalance _ _) fun _ => ?_
      refine confined_bind (confined_query _) fun _ => ?_
      exact confined_bind (confined_createTransaction hsettled _) fun _ => confined_pure _
  · split
    · refine confined_bind (confined_incrementBalance _ _) fun _ => ?_
      exact confined_bind (confined_createTransaction hinflow _) fun _ => confined_pure _
    · exact confined_pure _

theorem confined_settleTx (c : ProcessCall) (hsettled : c.settledTxId ∈ made)
    (hinflow : c.inflowTxId ∈ made) (t : Transfer) : Confined gone made (settleTx c t) := by
  refine confined_bind (confined_query _) fun sender => ?_
  cases sender with
  | none => exact confined_throw _
  | some sender =>
    refine confined_bind (confined_ensureAccountLedger _ _) fun _ => ?_
    refine confined_bind (confined_settlePostings _ hsettled hinflow _ _) fun _ => ?_
    refine confined_bind (confined_post _) fun _ => ?_
    refine confined_bind (confined_updateTransaction? _ fun _ => rfl) fun _ => ?_
    exact confined_updateTransfer _ _

theorem confined_refundSender (t : Transfer) (source : LedgerCode)
    (entry : List PostingInput → JournalInput) :
    Confined gone made (refundSender t source entry) := by
  refine confined_bind (confined_query _) fun sender => ?_
  cases sender with
  | none => exact confined_throw _
  | some sender =>
    refine confined_bind (confined_ensureAccountLedger _ _) fun _ => ?_
    refine confined_bind (confined_incrementBalance _ _) fun _ => ?_
    exact confined_bind (confined_post _) fun _ => confined_pure ()

theorem confined_rejectTx (c : DecideCall) (t : Transfer) : Confined gone made (rejectTx c t) := by
  refine confined_bind (confined_refundSender _ _ _) fun _ => ?_
  refine confined_bind (confined_updateTransaction? _ fun _ => rfl) fun _ => ?_
  exact confined_executeUpdateTransfer _ _

theorem confined_flipReversed (id : Option Uuid) {f : Transaction → Transaction}
    (hf : ∀ row, (f row).accountId = row.accountId) : Confined gone made (flipReversed id f) := by
  cases id with
  | none => exact confined_pure ()
  | some id =>
    refine confined_of_map id hf fun db r h => ?_
    obtain ⟨T, hr, hT⟩ := updateManyTransaction_ok h
    exact ⟨T, hr, hT.lookup⟩

theorem confined_reverseTx (c : ReverseCall) (hc : c.reversalTxId ∈ made) (t : Transfer) :
    Confined gone made (reverseTx c t) := by
  refine confined_bind (confined_refundSender _ _ _) fun _ => ?_
  refine confined_bind (confined_createTransaction hc _) fun _ => ?_
  refine confined_bind (confined_flipReversed _ fun _ => rfl) fun _ => ?_
  refine confined_bind (confined_flipReversed _ fun _ => rfl) fun _ => ?_
  exact confined_updateTransfer _ _

theorem confined_adjust (a u : Uuid) (d : ℤ) (ref : Uuid) (now : Instant) :
    Confined gone made (adjust a u d ref now) := by
  unfold adjust
  split
  · exact confined_pure none
  · refine confined_bind ?_ fun id => confined_bind (confined_incrementBalance a d) fun _ =>
      confined_pure (some id)
    exact confined_bind (confined_ensureAccountLedger a u) fun _ => confined_post _

end Tx

/-! ## Services -/

/-- Every action moves nothing but money, and takes and makes only these rows of the feed. -/
def Confined {α : Type} (gone made : List Uuid) (p : Service α) : Prop :=
  p.Each fun w w' => Framed gone made w.db w'.db

section Services

variable {α β : Type} {i : ℕ} {gone made : List Uuid}

theorem Quiet.confined {p : Service α} (hp : Quiet p) : Confined gone made p := by
  refine Prog.Each.imp hp fun w w' h => ?_
  rw [h.1]
  exact .refl _

theorem confined_bind {p : Service α} {k : α → Service β} (hp : Confined gone made p)
    (hk : ∀ a, Confined gone made (k a)) : Confined gone made (p >>= k) := Prog.each_bind hp hk

theorem confined_tryCatch {p : Service α} {k : Error → Service α} (hp : Confined gone made p)
    (hk : ∀ e, Confined gone made (k e)) : Confined gone made (tryCatch p k) :=
  Prog.each_tryCatch hp hk

theorem confined_transaction {rows : List Uuid} {body : Tx α}
    (hbody : Tx.Confined gone made body) : Confined gone made (transaction i rows body) :=
  transaction_each (fun w => .refl w.db) fun w r hr => hbody w.db r hr

theorem confined_withLock {a : Uuid} {body : Service α} (hbody : Confined gone made body) :
    Confined gone made (withLock i a body) := by
  have hunlock : Confined gone made (unlockAccount a) := Prog.each_modify fun w => .refl w.db
  refine confined_bind (Prog.each_modify fun w => .refl w.db) fun _ => ?_
  refine confined_bind (confined_tryCatch hbody fun e => ?_) fun r => ?_
  · exact confined_bind hunlock fun _ => (quiet_throw e).confined
  · exact confined_bind hunlock fun _ => (quiet_pure r).confined

theorem initiate_confined (env : Env) (ic : InitiateCall) (hic : ic.pendingTxId ∈ made) :
    Confined gone made (initiate env i ic) := by
  unfold initiate
  split
  · exact (quiet_throw _).confined
  · refine confined_bind (quiet_query _).confined fun user => ?_
    split
    · exact (quiet_throw _).confined
    · refine confined_bind (quiet_query _).confined fun replay => ?_
      cases replay with
      | some r =>
        simp only [replayed]
        split
        · exact (quiet_throw _).confined
        · exact (quiet_pure _).confined
      | none =>
        refine confined_bind (Prog.each_lift _) fun r => ?_
        simp only
        split
        · exact (quiet_throw _).confined
        · refine confined_bind (quiet_wireGate env _).confined fun _ => ?_
          refine confined_bind (quiet_sourceAccount _ _).confined fun a => ?_
          refine confined_bind (quiet_internalDestination _ _).confined fun toAccount => ?_
          split
          · exact (quiet_throw _).confined
          · refine confined_bind (quiet_describeTransfer env _ _ _).confined fun d => ?_
            refine confined_bind (confined_withLock ?_) fun t => ?_
            · refine confined_bind (quiet_query _).confined fun fresh => ?_
              cases fresh with
              | none => exact (quiet_throw _).confined
              | some a =>
                simp only
                split
                · exact (quiet_throw _).confined
                · exact confined_transaction (Tx.confined_pendingTx _ hic _ _ _ _ _)
            · refine confined_bind (quiet_emit _).confined fun _ => ?_
              exact confined_bind (quiet_handOver ic t).confined fun _ => (quiet_pure _).confined

theorem process_confined (pc : ProcessCall) (hsettled : pc.settledTxId ∈ made)
    (hinflow : pc.inflowTxId ∈ made) : Confined gone made (process i pc) := by
  refine confined_bind (quiet_query _).confined fun t => ?_
  cases t with
  | none => exact (quiet_pure ()).confined
  | some t =>
    simp only
    split
    · refine confined_bind (confined_transaction ?_) fun _ => (quiet_announceSettled pc t).confined
      exact Tx.confined_settleTx pc hsettled hinflow t
    · exact (quiet_pure ()).confined

theorem markFailed_confined (id : Uuid) (reason : String) (now : Instant) :
    Confined gone made (markFailed i id reason now) :=
  confined_transaction (Tx.confined_updateTransfer _ _)

theorem runJob_confined (pc : ProcessCall) (hsettled : pc.settledTxId ∈ made)
    (hinflow : pc.inflowTxId ∈ made) : Confined gone made (runJob i pc) := by
  refine confined_bind (Quiet.confined (Prog.each_read _ fun _ => ⟨rfl, rfl⟩)) fun job => ?_
  cases job with
  | none => exact (quiet_pure ()).confined
  | some job =>
    simp only
    split
    · exact (quiet_pure ()).confined
    · refine confined_tryCatch (confined_bind (process_confined pc hsettled hinflow) fun _ =>
        (quiet_onQueue _).confined) fun e => ?_
      refine confined_bind (quiet_onQueue _).confined fun _ => ?_
      unfold onFailed
      split
      · exact confined_tryCatch (markFailed_confined _ _ _) fun _ => (quiet_pure ()).confined
      · exact (quiet_pure ()).confined

theorem forceSettle_confined (fc : ForceSettleCall) (hsettled : fc.worker.settledTxId ∈ made)
    (hinflow : fc.worker.inflowTxId ∈ made) :
    Confined gone made (forceSettle i fc) := by
  refine confined_bind (quiet_query _).confined fun t => ?_
  cases t with
  | none => exact (quiet_throw _).confined
  | some t =>
    refine confined_bind ?_ fun _ => ?_
    · unfold reopen
      split
      · exact (quiet_pure ()).confined
      · exact confined_transaction (Tx.confined_updateTransfer _ _)
    · unfold settleAgain
      split
      · exact (quiet_onQueue _).confined
      · exact process_confined fc.worker hsettled hinflow

theorem decideTransfer_confined (dc : DecideCall)
    (hsettled : dc.settle.worker.settledTxId ∈ made)
    (hinflow : dc.settle.worker.inflowTxId ∈ made) :
    Confined gone made (decideTransfer i dc) := by
  unfold decideTransfer
  split
  · exact (quiet_throw _).confined
  · refine confined_bind (quiet_query _).confined fun t => ?_
    cases t with
    | none => exact (quiet_throw _).confined
    | some t =>
      simp only
      split
      · exact (quiet_throw _).confined
      · split
        · exact (quiet_throw _).confined
        · unfold decideReviewable
          split
          · refine confined_bind (confined_transaction (Tx.confined_executeUpdateTransfer _ _))
              fun _ => confined_bind (quiet_emit _).confined fun _ => ?_
            exact confined_tryCatch (forceSettle_confined _ hsettled hinflow) fun _ =>
              (quiet_pure ()).confined
          · exact confined_bind (confined_transaction (Tx.confined_rejectTx dc t)) fun _ =>
              (quiet_announceRejected dc t).confined

theorem approveWire_confined (ac : ApproveCall)
    (hsettled : ac.settle.worker.settledTxId ∈ made)
    (hinflow : ac.settle.worker.inflowTxId ∈ made) :
    Confined gone made (approveWire i ac) := by
  refine confined_bind (quiet_query _).confined fun t => ?_
  cases t with
  | none => exact (quiet_throw _).confined
  | some t =>
    simp only
    split
    · exact (quiet_throw _).confined
    · split
      · exact (quiet_throw _).confined
      · split
        · exact (quiet_throw _).confined
        · refine confined_bind (confined_transaction (Tx.confined_executeUpdateTransfer _ _))
            fun _ => confined_bind ?_ fun _ => (quiet_emit _).confined
          exact confined_tryCatch (forceSettle_confined _ hsettled hinflow) fun _ =>
            (quiet_pure ()).confined

theorem reverseWire_confined (rc : ReverseCall) (hrc : rc.reversalTxId ∈ made) :
    Confined gone made (reverseWire i rc) := by
  refine confined_bind (quiet_query _).confined fun t => ?_
  cases t with
  | none => exact (quiet_throw _).confined
  | some t =>
    simp only
    split
    · exact (quiet_throw _).confined
    · split
      · exact (quiet_throw _).confined
      · exact confined_bind (confined_transaction (Tx.confined_reverseTx rc hrc t)) fun _ =>
          (quiet_afterReverse rc t).confined

/-! The edits of transactions. -/

theorem patch_confined (env : Env) (ec : EditCall) (dto : PatchDto) :
    Confined gone made (patch env i ec dto) := by
  refine confined_bind (quiet_assertRate _ _ _).confined fun _ => ?_
  refine confined_bind (quiet_readTransaction _ _).confined fun t => ?_
  refine confined_bind (quiet_checkPatch _ _ _).confined fun _ => ?_
  refine confined_bind (confined_transaction ?_) fun _ => ?_
  · exact Tx.confined_bind (Tx.confined_adjust _ _ _ _ _) fun _ => Tx.confined_upsertOverride _ _ _
  · refine confined_bind (quiet_readTransaction _ _).confined fun fresh => ?_
    refine confined_bind (quiet_emitTxUpdated _ _ _).confined fun _ => ?_
    exact confined_bind (quiet_emitBalanceIf _ _).confined fun _ => (quiet_pure _).confined

theorem create_confined (env : Env) (ec : EditCall) (hec : ec.transactionId ∈ made)
    (dto : CreateDto) :
    Confined gone made (create env i ec dto) := by
  refine confined_bind (quiet_assertRate _ _ _).confined fun _ => ?_
  refine confined_bind (quiet_query _).confined fun account => ?_
  cases account with
  | none => exact (quiet_throw _).confined
  | some account =>
    unfold createOn
    cases dto.amountCents with
    | none => exact (quiet_throw _).confined
    | some amount =>
      simp only
      split
      · exact (quiet_throw _).confined
      · refine confined_bind (quiet_checkCreate _ _ _).confined fun _ => ?_
        refine confined_bind (confined_transaction ?_) fun _ => ?_
        · refine Tx.confined_bind (Tx.confined_createTransaction hec _) fun _ => ?_
          exact Tx.confined_bind (Tx.confined_adjust _ _ _ _ _) fun _ => Tx.confined_pure ()
        · refine confined_bind (quiet_emit _).confined fun _ => ?_
          refine confined_bind (quiet_emitBalance _).confined fun _ => ?_
          exact confined_bind (quiet_readTransaction _ _).confined fun _ => (quiet_pure _).confined

theorem delete_confined (env : Env) (ec : EditCall) (hec : ec.transactionId ∈ gone) :
    Confined gone made (delete env i ec) := by
  refine confined_bind (quiet_assertRate _ _ _).confined fun _ => ?_
  refine confined_bind (quiet_readTransaction _ _).confined fun t => ?_
  refine confined_bind (confined_transaction ?_) fun _ => ?_
  · refine Tx.confined_bind (Tx.confined_adjust _ _ _ _ _) fun _ => ?_
    refine Tx.confined_bind ?_ fun _ => Tx.confined_deleteTransaction hec
    unfold deleteRead
    split
    · exact Tx.confined_deleteOverride _
    · exact Tx.confined_pure ()
  · exact confined_bind (quiet_emit _).confined fun _ => (quiet_emitBalanceIf _ _).confined

theorem hide_confined (env : Env) (ec : EditCall) : Confined gone made (hide env i ec) := by
  refine confined_bind (quiet_assertRate _ _ _).confined fun _ => ?_
  refine confined_bind (quiet_readTransaction _ _).confined fun t => ?_
  refine confined_bind (confined_transaction (Tx.confined_upsertOverride _ _ _)) fun _ => ?_
  exact confined_bind (quiet_readTransaction _ _).confined fun _ =>
    (quiet_emitTxUpdated _ _ _).confined

theorem clearOverride_confined (ec : EditCall) : Confined gone made (clearOverride i ec) := by
  refine confined_bind (quiet_readTransaction _ _).confined fun t => ?_
  split
  · exact (quiet_throw _).confined
  · refine confined_bind (confined_transaction ?_) fun _ => ?_
    · exact Tx.confined_bind (Tx.confined_adjust _ _ _ _ _) fun _ => Tx.confined_deleteOverride _
    · refine confined_bind (quiet_readTransaction _ _).confined fun _ => ?_
      exact confined_bind (quiet_emitTxUpdated _ _ _).confined fun _ =>
        (quiet_emitBalanceIf _ _).confined

theorem shiftAll_confined (ec : EditCall) (days : ℤ) (ids : List Uuid) :
    Confined gone made (shiftAll i ec days ids) := by
  induction ids with
  | nil => exact (quiet_pure _).confined
  | cons id ids ih =>
    refine confined_bind ?_ fun _ => confined_bind ih fun _ => (quiet_pure _).confined
    refine confined_bind (quiet_query _).confined fun row => ?_
    cases row with
    | none => exact (quiet_pure _).confined
    | some t =>
      refine confined_bind (confined_transaction (Tx.confined_upsertOverride _ _ _)) fun _ => ?_
      refine confined_bind (quiet_readTransaction _ _).confined fun _ => ?_
      exact confined_bind (quiet_emitTxUpdated _ _ _).confined fun _ => (quiet_pure _).confined

theorem bulkShift_confined (superadmin : Bool) (ec : EditCall) (ids : List Uuid) (days : ℤ) :
    Confined gone made (bulkShift i superadmin ec ids days) := by
  unfold bulkShift
  split
  · exact (quiet_throw _).confined
  · split
    · exact (quiet_throw _).confined
    · exact shiftAll_confined ec days ids

/-- **Every call moves nothing but money**, and takes and makes its own rows of the feed. -/
theorem program_confined (env : Env) (i : ℕ) (c : Call) :
    Confined c.deletes c.draws (program env i c) := by
  have hdone : ∀ {gone made : List Uuid} {α β : Type} {p : Service α} {f : α → β},
      Confined gone made p → Confined gone made (p >>= fun a => pure (f a)) :=
    fun hp => confined_bind hp fun _ => (quiet_pure _).confined
  cases c with
  | initiate ic => exact hdone (initiate_confined env ic (by simp [Call.draws]))
  | process pc => exact hdone (process_confined pc (by simp [Call.draws]) (by simp [Call.draws]))
  | runJob pc => exact hdone (runJob_confined pc (by simp [Call.draws]) (by simp [Call.draws]))
  | forceSettle fc =>
    exact hdone (forceSettle_confined fc (by simp [Call.draws]) (by simp [Call.draws]))
  | decide dc =>
    exact hdone (decideTransfer_confined dc (by simp [Call.draws]) (by simp [Call.draws]))
  | approve ac =>
    exact hdone (approveWire_confined ac (by simp [Call.draws]) (by simp [Call.draws]))
  | reverse rc => exact hdone (reverseWire_confined rc (by simp [Call.draws]))
  | markFailed id reason now => exact hdone (markFailed_confined id reason now)
  | patch ec dto => exact hdone (patch_confined env ec dto)
  | create ec dto => exact hdone (create_confined env ec (by simp [Call.draws]) dto)
  | delete ec => exact hdone (delete_confined env ec (by simp [Call.deletes]))
  | hide ec => exact hdone (hide_confined env ec)
  | clearOverride ec => exact hdone (clearOverride_confined ec)
  | bulkShift superadmin ec ids days => exact hdone (bulkShift_confined superadmin ec ids days)

end Services

end BankDemo
