import BankDemo.System.Frame
import BankDemo.System.Progress
import BankDemo.System.Rows

/-!
# Edits of the pending transactions of open transfers

The edits of transactions know nothing of transfers. A deletion gives back what the transaction
took, and a settlement or a rejection of the transfer then throws, for want of the row, while a
reversal does without it and refunds once more (`refunded_by_deletion_and_reversal`).

Where no deletion commits on the pending transaction of a transfer that is pending, edits do no
harm: the row is kept as long as the transfer is open, and a settlement finds it
(`open_transfers_survive_edits`).
-/

namespace BankDemo

open Ledger Transfers Admin

/-- The transactions a call edits or deletes. -/
def Call.edits : Call → List Uuid
  | .patch c _ | .delete c | .hide c | .clearOverride c => [c.transactionId]
  | .bulkShift _ _ ids _ => ids
  | _ => []

/-- The transfer is pending, and `p` is its pending transaction. -/
def OpenWith (db : Db) (id p : Uuid) : Prop :=
  ∃ t, db.transfers.lookup id = some t ∧ t.status = .pending ∧ t.pendingTransactionId = some p

/-- The step delivers or refunds the transfer. -/
def PaysOut (id : Uuid) (x : Step World Call) : Prop :=
  ∃ src ∈ [JournalSource.settle id, .reject id, .adminReverse id],
    x.post.db.entriesOf src ≠ x.pre.db.entriesOf src

/-- The step is that of a deletion that takes the transaction `p` away. -/
def Deletes (p : Uuid) (x : Step World Call) : Prop :=
  p ∈ x.call.deletes ∧ (x.pre.db.transactions.lookup p).isSome ∧
    (x.post.db.transactions.lookup p).isNone

instance (p : Uuid) (x : Step World Call) : Decidable (Deletes p x) :=
  inferInstanceAs (Decidable (_ ∧ _))

/-- The transfer is pending, and a run of the worker on it throws, whatever unused ids it draws. -/
def Stuck (w : World) (id : Uuid) : Prop :=
  ∃ t, w.db.transfers.lookup id = some t ∧ t.status = .pending ∧
    ∀ (me : ℕ) (pc : ProcessCall), pc.transferId = id →
      t.pendingTransactionId ≠ some pc.settledTxId → t.pendingTransactionId ≠ some pc.inflowTxId →
      ((process me pc).run w).1 ≠ .ok ()

/-- What edits of the pending transaction of an open transfer must not lead to. -/
structure EditsSafe (tr : List (Step World Call)) : Prop where
  /-- A transfer whose pending transaction is deleted, which gives back its amount, is not
  delivered or refunded any more. -/
  paidOnce : ∀ later x earlier id p, tr = later ++ x :: earlier → OpenWith x.pre.db id p →
    Deletes p x → ∀ y ∈ later, ¬ PaysOut id y
  /-- A transfer whose pending transaction is edited or deleted does not get stuck, as long as it
  is open and its accounts are there. -/
  live : ∀ later x earlier id p t, tr = later ++ x :: earlier → OpenWith x.pre.db id p →
    (x.pre.db.transactions.lookup p).isSome → p ∈ x.call.edits →
    (∀ y ∈ later ++ [x], OpenWith y.post.db id p) →
    ∀ w past, visited x.post later = w :: past →
      w.db.transfers.lookup id = some t → Housed w.db t → ¬ Stuck w id

/-- No transfer that is pending has the transaction `p` as its pending one. -/
def NoneOpenWith (db : Db) (p : Uuid) : Prop := ∀ id, ¬ OpenWith db id p

/-! ## The row is kept -/

section Kept

variable {env : Env} {w₀ : World} {tr : List (Step World Call)} {P : Pool World Error Answer Call}

theorem run_frames (hrun : Run (program env) (fun _ => True) w₀ tr P) :
    ∀ x ∈ tr, Framed x.call.deletes x.call.draws x.pre.db x.post.db := by
  refine (hrun.each (Q := fun c w w' => Framed c.deletes c.draws w.db w'.db) fun i c _ => ?_).1
  exact program_confined env i c

/-- A step that does not delete the transaction keeps it. -/
theorem row_kept {x : Step World Call} {p : Uuid}
    (hframe : Framed x.call.deletes x.call.draws x.pre.db x.post.db) (hdeletes : ¬ Deletes p x)
    (hp : (x.pre.db.transactions.lookup p).isSome) :
    (x.post.db.transactions.lookup p).isSome := by
  by_cases hmem : p ∈ x.call.deletes
  · by_contra hgone
    exact hdeletes ⟨hmem, hp, by simpa using hgone⟩
  · exact hframe.kept p hmem hp

theorem charted_visited (hframes : ∀ x ∈ tr, Framed x.call.deletes x.call.draws x.pre.db x.post.db)
    (hsteps : (system env).Steps w₀ tr) (hstart : Charted w₀.db.ledgerAccounts) :
    ∀ w past, visited w₀ tr = w :: past → Charted w.db.ledgerAccounts := by
  refine steps_induct (I := fun _ w => Charted w.db.ledgerAccounts) hsteps hstart ?_
  intro earlier x past hx _ _ hI _
  exact hI.mono (hframes x hx).chart

/-- The newest of the states from a step on is one that the step or a later one has led to. -/
theorem newest_post {later : List (Step World Call)} {x : Step World Call} {w : World}
    {past : List World} (h : visited x.post later = w :: past) :
    ∃ y ∈ later ++ [x], w = y.post := by
  cases later with
  | nil =>
    cases h
    exact ⟨x, by simp, rfl⟩
  | cons y later =>
    cases h
    exact ⟨y, by simp, rfl⟩

/-- A pending transaction is kept while its transfer is open, if no deletion commits on one. -/
theorem row_kept_open {x : Step World Call} {earlier later : List (Step World Call)} {id p : Uuid}
    (hsteps : (system env).Steps w₀ (later ++ x :: earlier)) (hopen : OpenWith x.pre.db id p)
    (hrow : (x.pre.db.transactions.lookup p).isSome)
    (hframes : ∀ y ∈ later ++ [x], Framed y.call.deletes y.call.draws y.pre.db y.post.db)
    (hspared : ∀ y ∈ later ++ [x], Deletes p y → NoneOpenWith y.pre.db p)
    (hposts : ∀ y ∈ later ++ [x], OpenWith y.post.db id p) :
    ∀ w past, visited x.post later = w :: past → (w.db.transactions.lookup p).isSome := by
  have hstep : ∀ y ∈ later ++ [x], OpenWith y.pre.db id p →
      (y.pre.db.transactions.lookup p).isSome → (y.post.db.transactions.lookup p).isSome := by
    intro y hy hopen hrow
    exact row_kept (hframes y hy) (fun hdeletes => hspared y hy hdeletes id hopen) hrow
  have hafter := hsteps.after
    (I := fun w => OpenWith w.db id p ∧ (w.db.transactions.lookup p).isSome)
    ⟨hposts x (by simp), hstep x (by simp) hopen hrow⟩
    fun y _ _ hy _ _ _ _ hpre =>
      ⟨hposts y (List.mem_append_left _ hy), hstep y (List.mem_append_left _ hy) hpre.1 hpre.2⟩
  exact fun w past hw => (hafter.2 w past hw).2

/-- A transfer with its rows is not stuck. -/
theorem not_stuck {w : World} {id p : Uuid} {t : Transfer} (ht : w.db.transfers.lookup id = some t)
    (hopen : OpenWith w.db id p) (hrow : (w.db.transactions.lookup p).isSome)
    (hhoused : Housed w.db t) (hchart : Charted w.db.ledgerAccounts) : ¬ Stuck w id := by
  rintro ⟨t', ht', -, hthrows⟩
  obtain rfl := Option.some.inj (ht.symm.trans ht')
  obtain ⟨t₁, ht₁, -, hp⟩ := hopen
  obtain rfl := Option.some.inj (ht.symm.trans ht₁)
  obtain ⟨fresh, hfresh⟩ := exists_unused w.db.transactions
  have hne : t.pendingTransactionId ≠ some fresh := by
    rw [hp]
    intro heq
    rw [Option.some.inj heq, hfresh] at hrow
    cases hrow
  refine hthrows 0 ⟨id, fresh, fresh, 0⟩ rfl hne hne (process_goes 0 ?_ hchart hfresh hfresh)
  intro t₂ ht₂ _
  obtain rfl := Option.some.inj (ht.symm.trans ht₂)
  refine ⟨hhoused, fun q hq => ?_⟩
  obtain rfl := Option.some.inj (hp.symm.trans hq)
  exact hrow

end Kept

/-- **Edits and open transfers.** In every interleaving of calls in which no deletion commits on a
transaction that is the pending one of a transfer that is pending, edits of the pending
transaction of an open transfer neither lead to a second payment nor leave the transfer stuck. -/
theorem open_transfers_survive_edits (env : Env) (w₀ : World)
    (hseeds : ∀ s ∈ systemLedgerSeeds, (w₀.db.ledgerAccounts.lookup s.1).isSome)
    (tr : List (Step World Call)) (P : Pool World Error Answer Call)
    (hrun : Run (program env) (fun _ => True) w₀ tr P)
    (hspared : ∀ x ∈ tr, ∀ p, Deletes p x → NoneOpenWith x.pre.db p) : EditsSafe tr := by
  have hframes := run_frames hrun
  refine ⟨?_, ?_⟩
  · rintro later x earlier id p rfl hopen hdeletes
    exact absurd hopen (hspared x (by simp) p hdeletes id)
  · rintro later x earlier id p t rfl hopen hrow - hposts w past hw ht hhoused
    have hmem : ∀ y ∈ later ++ [x], y ∈ later ++ x :: earlier := by
      intro y hy
      rcases List.mem_append.1 hy with hy | hy
      · exact List.mem_append_left _ hy
      · rw [List.mem_singleton.1 hy]
        simp
    have hkept := row_kept_open hrun.steps hopen hrow (fun y hy => hframes y (hmem y hy))
      (fun y hy => hspared y (hmem y hy) p) hposts w past hw
    have hchart := charted_visited hframes hrun.steps (charted_seeds hseeds) w
      (past ++ visited w₀ earlier) (by rw [visited_from, hw]; rfl)
    obtain ⟨y, hy, hyw⟩ := newest_post hw
    have hend := hposts y hy
    rw [← hyw] at hend
    exact not_stuck ht hend hkept hhoused hchart

/-- An edit of the pending transaction of transfer 100. -/
def samplePendingEdit : EditCall := ⟨9, 101, "correction", 0⟩

/-- A payment of 20.00 whose pending transaction is patched before it settles, and deleted
after. -/
def samplePatched : List (Choice Call) :=
  oneByOne [.initiate (samplePay .p2p 20 100 2000 false),
    .patch samplePendingEdit ⟨some (-1500), none, none, none, none, false⟩,
    .process (sampleSettle 100 200), .delete samplePendingEdit]

theorem open_transfers_survive_edits_patched :
    (exec (program sampleEnv) sampleWorld samplePatched).2.state.db.balance 20 = 2000 ∧
      EditsSafe (exec (program sampleEnv) sampleWorld samplePatched).1 := by
  refine ⟨by decide +kernel, open_transfers_survive_edits sampleEnv sampleWorld (by decide) _ _
    (exec_run samplePatched fun _ _ => trivial) ?_⟩
  have hclosed : ∀ x ∈ (exec (program sampleEnv) sampleWorld samplePatched).1,
      x.call.deletes ≠ [] → ∀ e ∈ x.pre.db.transfers.entries, e.2.status ≠ .pending := by
    decide +kernel
  rintro x hx p ⟨hmem, -⟩ id ⟨t, ht, hpending, -⟩
  exact hclosed x hx (List.ne_nil_of_mem hmem) ⟨id, t⟩ (Table.mem_entries_iff.2 ht) hpending

/-- A wire of 20.00 whose pending transaction is deleted, and which is then reversed. -/
def sampleDeletedWire : List (Choice Call) :=
  oneByOne [.initiate (samplePay .wireOut 20 100 2000 false), .delete samplePendingEdit,
    .reverse (sampleReverse 100 300)]

/-- Ann gets the amount and the fee of the wire back twice. -/
theorem refunded_by_deletion_and_reversal :
    ¬ ∀ (env : Env) (w₀ : World),
        (∀ s ∈ systemLedgerSeeds, (w₀.db.ledgerAccounts.lookup s.1).isSome) →
        ∀ (tr : List (Step World Call)) (P : Pool World Error Answer Call),
        Run (program env) (fun _ => True) w₀ tr P → EditsSafe tr := by
  intro h
  have hsafe := h sampleEnv sampleWorld (by decide) _ _
    (exec_run sampleDeletedWire fun _ _ => trivial)
  -- of the 23 steps, newest first, the deletion is number 10 and the reversal number 5
  have hdeletion : ((exec (program sampleEnv) sampleWorld sampleDeletedWire).1[10]?).any fun x =>
      ((x.pre.db.transfers.lookup 100).any fun t => t.status = .pending &&
        t.pendingTransactionId = some 101) && decide (Deletes 101 x) := by
    decide +kernel
  have hreversal : (((exec (program sampleEnv) sampleWorld sampleDeletedWire).1.take 10)[5]?).any
      fun y => y.post.db.entriesOf (.adminReverse 100) ≠
        y.pre.db.entriesOf (.adminReverse 100) := by
    decide +kernel
  obtain ⟨x, hx, hdeletes⟩ := (Option.any_eq_true _ _).1 hdeletion
  obtain ⟨y, hy, hentries⟩ := (Option.any_eq_true _ _).1 hreversal
  simp only [Bool.and_eq_true, Option.any_eq_true, decide_eq_true_eq] at hdeletes hentries
  obtain ⟨⟨t, ht, hpending, hp⟩, hdeletes⟩ := hdeletes
  exact hsafe.paidOnce _ x _ 100 101 (eq_take_cons_drop hx) ⟨t, ht, hpending, hp⟩ hdeletes y
    (List.mem_of_getElem? hy) ⟨_, by simp, hentries⟩

end BankDemo
