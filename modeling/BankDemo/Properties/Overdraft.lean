import BankDemo.System.Rows

/-!
# No overdraft

`initiate` reads the sender's balance twice. The first read is stale by the time of the debit; the
second is made with the row locked, and nobody moves the balance of a locked account
(`debitSender_follows`), so the debit finds the balance that was checked. All other movements of
transfers add to balances, as long as amounts and totals are not negative.

* `no_overdraft`: in every interleaving of calls on transfers, an account that was not in the red
  never is later; and an `initiate` that fails has changed nothing.
-/

namespace BankDemo

open Ledger Transfers Admin

theorem balance_of_credited_ge {a : Uuid} {d : ℤ} {db db' : Db} (h : Credited a d db db')
    (hd : 0 ≤ d) (x : Uuid) : db.balance x ≤ db'.balance x := by
  rw [Credited.balance h]
  split <;> omega

theorem balance_of_settled_ge {pc : ProcessCall} {t : Transfer} {db db' : Db}
    (h : Settled pc t db db') (ht : 0 ≤ t.amountCents) (x : Uuid) :
    db.balance x ≤ db'.balance x := by
  have hbalance := h.balance
  cases hc : creditedAccount t with
  | none =>
    rw [hc] at hbalance
    rw [balance_of_accounts_eq hbalance]
  | some a =>
    rw [hc] at hbalance
    exact balance_of_credited_ge hbalance ht x

/-- A change by a call on transfers puts no account in the red, when the amounts and totals that
were seen are not negative. -/
theorem Change.nonneg {env : Env} {h : List World} {db db' : Db} {c : Call}
    (hchange : Change env h db db' c) (hc : c.isEdit = false)
    (hseen : ∀ id t, Seen h id t → 0 ≤ t.amountCents ∧ 0 ≤ t.amountCents + t.feeCents) {a : Uuid}
    (ha : 0 ≤ db.balance a) : 0 ≤ db'.balance a := by
  cases hchange with
  | quiet hdb =>
    rw [hdb]
    exact ha
  | initiated _ hfunds hinit =>
    rw [hinit.balance.balance]
    split
    · rename_i hfrom
      rw [hfrom]
      omega
    · omega
  | settled _ hs _ hsettled =>
    exact ha.trans (balance_of_settled_ge hsettled (hseen _ _ hs).1 a)
  | reopened _ _ _ hreset =>
    rw [hreset.balance]
    exact ha
  | approved _ _ _ _ hstamp =>
    rw [hstamp.balance]
    exact ha
  | rejected _ hs _ _ hrej =>
    exact ha.trans (balance_of_credited_ge hrej.refunded.balance (hseen _ _ hs).2 a)
  | reversed hs _ _ hrev =>
    exact ha.trans (balance_of_credited_ge hrev.refunded.balance (hseen _ _ hs).2 a)
  | failed _ hstamp =>
    rw [hstamp.balance]
    exact ha
  | adjusted hedit _ =>
    rw [hc] at hedit
    cases hedit

/-- A call of `initiate` fails clean. -/
theorem program_initiate_failsClean (env : Env) (i : ℕ) (ic : InitiateCall) :
    (program env i (.initiate ic)).FailsClean SameDb :=
  (initiate_failsClean env i ic).bind fun _ => Prog.neverFails_pure _

/-- Under a configuration without negative amounts and totals, none is seen if there was none at the
start. -/
theorem steps_totals {env : Env} (hcfg : env.cfg.TotalsNonneg) {w₀ : World}
    {tr : List (Step World Call)} (hsteps : (system env).Steps w₀ tr)
    (hstart : ∀ id t, w₀.db.transfers.lookup id = some t →
      0 ≤ t.amountCents ∧ 0 ≤ t.amountCents + t.feeCents) :
    ∀ id t, Seen (visited w₀ tr) id t → 0 ≤ t.amountCents ∧ 0 ≤ t.amountCents + t.feeCents := by
  refine steps_seen_terms hsteps (fun t t' hterms ht => ?_) (fun ic t hadmitted => ?_) hstart
  · rw [amount_of_terms hterms, fee_of_terms hterms]
    exact ht
  · obtain ⟨s, fx, toAccount, -, hvalid, rfl⟩ := hadmitted.row
    exact hcfg _ _ _ _ hvalid

/-- When no edit takes a balance below zero, no balance that was not negative ever is. -/
theorem steps_nonneg {env : Env} {w₀ : World} {tr : List (Step World Call)}
    (hsteps : (system env).Steps w₀ tr)
    (hseen : ∀ id t, Seen (visited w₀ tr) id t →
      0 ≤ t.amountCents ∧ 0 ≤ t.amountCents + t.feeCents)
    (hedits : ∀ x ∈ tr, x.call.isEdit = true → ∀ a, 0 ≤ x.pre.db.balance a →
      0 ≤ x.post.db.balance a) :
    ∀ w past, visited w₀ tr = w :: past → ∀ w' ∈ visited w₀ tr, ∀ a,
      0 ≤ w'.db.balance a → 0 ≤ w.db.balance a := by
  refine steps_invariant (I := fun h => ∀ w past, h = w :: past → ∀ w' ∈ h, ∀ a,
    0 ≤ w'.db.balance a → 0 ≤ w.db.balance a) hsteps ?_ ?_
  · intro w past hw w' hw' a ha
    cases hw
    obtain rfl := List.mem_singleton.1 hw'
    exact ha
  · intro x hx past hpast hI hchange w past' hw w' hw' a ha
    cases hw
    rcases List.mem_cons.1 hw' with rfl | hw'
    · exact ha
    · have hpre := hI x.pre past rfl w' hw' a ha
      cases hedit : x.call.isEdit with
      | true => exact hedits x hx hedit a hpre
      | false => exact hchange.nonneg hedit (fun id t ht => hseen id t (ht.mono hpast)) hpre

/-- **No overdraft.** Under a configuration without negative amounts and totals, in every
interleaving of calls on transfers: an account whose balance was not negative in some state of the
run has no negative balance in a later one, and a call of `initiate` that fails, with
`Insufficient funds` or another error, has changed nothing in the database. -/
theorem no_overdraft (env : Env) (hcfg : env.cfg.TotalsNonneg) (w₀ : World)
    (hstart : ∀ id t, w₀.db.transfers.lookup id = some t →
      0 ≤ t.amountCents ∧ 0 ≤ t.amountCents + t.feeCents)
    (tr : List (Step World Call)) (P : Pool World Error Answer Call)
    (hrun : Run (program env) (fun c => c.isEdit = false) w₀ tr P) :
    (∀ w ∈ visited w₀ tr, ∀ a, 0 ≤ w.db.balance a → 0 ≤ P.state.db.balance a) ∧
    ∀ i ic e, P.threads[i]? = some ⟨.initiate ic, .fail e⟩ →
      ∀ x ∈ tr, x.tid = i → x.post.db = x.pre.db := by
  refine ⟨?_, fun i ic e ht => ?_⟩
  · obtain ⟨past, hpast⟩ := hrun.visited_eq
    refine steps_nonneg hrun.steps (steps_totals hcfg hrun.steps hstart) ?_ P.state past hpast
    intro x hx hedit
    rw [hrun.step_ok hx] at hedit
    cases hedit
  · have hclean : ∀ (j : ℕ) (c : Call), (∃ ic', c = .initiate ic') →
        (program env j c).FailsClean SameDb := by
      rintro j c ⟨ic', rfl⟩
      exact program_initiate_failsClean env j ic'
    have hsame := hrun.failed_same hclean ht ⟨ic, rfl⟩
    exact hsame

/-- Two payments of 3000.00 by Ann, one step of each in turn: both find 5000.00 at first, and one
of them is refused after the lock. -/
def sampleRace : List (Choice Call) :=
  [.call (.initiate (samplePay .p2p 20 100 300000 false)),
    .call (.initiate (samplePay .p2p 20 110 300000 false))] ++
    (List.replicate 16 [Choice.step 0, Choice.step 1]).flatten

theorem no_overdraft_race :
    (exec (program sampleEnv) sampleWorld sampleRace).2.state.db.balance 10 = 200000 ∧
      ∀ a, 0 ≤ sampleWorld.db.balance a →
        0 ≤ (exec (program sampleEnv) sampleWorld sampleRace).2.state.db.balance a := by
  have hcfg : sampleEnv.cfg.TotalsNonneg := totalsNonneg_of_min (by decide) (by decide)
  have hcalls : ∀ c, Choice.call c ∈ sampleRace → c.isEdit = false := by
    intro c hc
    simp only [sampleRace, List.mem_append, List.mem_cons, List.mem_flatten,
      List.mem_replicate] at hc
    rcases hc with (hc | hc | hc) | ⟨l, ⟨-, rfl⟩, hc⟩
    · cases hc
      rfl
    · cases hc
      rfl
    · cases hc
    · simp at hc
  have hrun := no_overdraft sampleEnv hcfg sampleWorld
    (fun id t ht => absurd ht (sample_no_transfers id t)) _ _ (exec_run sampleRace hcalls)
  exact ⟨by decide +kernel, hrun.1 sampleWorld (by simp [visited])⟩

/-- A configuration that admits negative amounts. -/
def negativeEnv : Env := { sampleEnv with cfg := { TransferConfig.default with minCents := -1000 } }

/-- With a negative minimum, the settlement of a payment of -5.00 puts Bob in the red. -/
theorem overdraft_negative_minimum :
    ¬ ∀ (env : Env) (w₀ : World), (∀ id, w₀.db.transfers.lookup id = none) →
      ∀ (tr : List (Step World Call)) (P : Pool World Error Answer Call),
        Run (program env) (fun c => c.isEdit = false) w₀ tr P →
        ∀ w ∈ visited w₀ tr, ∀ a, 0 ≤ w.db.balance a → 0 ≤ P.state.db.balance a := by
  intro h
  have hcalls : ∀ c, Choice.call c ∈ oneByOne [.initiate (samplePay .p2p 20 100 (-500) false),
      .process (sampleSettle 100 200)] → c.isEdit = false := by
    intro c hc
    have hmem := mem_oneByOne hc
    simp only [List.mem_cons, List.not_mem_nil, or_false] at hmem
    rcases hmem with rfl | rfl <;> rfl
  have hlast := h negativeEnv sampleWorld (fun _ => rfl) _ _ (exec_run _ hcalls) sampleWorld
    (by simp [visited]) 20 (by decide)
  revert hlast
  decide +kernel

end BankDemo
