import BankDemo.CheckDeposits.Service
import BankDemo.Properties.Books
import BankDemo.System.Frame

/-!
# Check deposits: decided once, and not in the books

Both decisions on a check deposit look at its status some time before they write, and write by the
id alone, so any number of calls can pass the check before one of them writes
(`deposit_credited_twice`). And an approval credits the customer without a journal entry.

* `deposit_decided_once_iff`: a deposit is decided at most once, and not credited if it ends
  rejected, exactly when every decision that takes effect finds it pending.
* `deposits_ledgered_iff`: the balances of all customers and their sub-ledgers have moved alike
  exactly when no approval was committed.
-/

namespace BankDemo

open Ledger Transfers Admin CheckDeposits

/-! ## Deposits among the other calls -/

/-- The calls on transfers and transactions, and the decisions on deposits. -/
abbrev BankCall := Call ⊕ DepositCall

/-- The program of a call, for thread `me`. -/
def bankProgram (env : Env) (me : ℕ) : BankCall → Service Answer :=
  Sum.elim (program env me) (depositProgram me)

/-- The discipline of all these calls. -/
def bank (env : Env) : Discipline World Error Answer BankCall := (system env).sum deposits rfl

/-- The deposit a call approves. -/
def approvesDeposit : BankCall → Option Uuid
  | .inr (.approve c) => some c.depositId
  | _ => none

/-- The step commits an approval of the deposit: it writes accounts. -/
def CreditsDeposit (id : Uuid) (x : Step World BankCall) : Prop :=
  approvesDeposit x.call = some id ∧ x.post.db.accounts.entries ≠ x.pre.db.accounts.entries

/-- A decision on the deposit takes effect in the step. -/
def DecidesDeposit (id : Uuid) (x : Step World BankCall) : Prop :=
  x.post.db.checkDeposits.lookup id ≠ x.pre.db.checkDeposits.lookup id ∨ CreditsDeposit id x

instance (id : Uuid) (x : Step World BankCall) : Decidable (CreditsDeposit id x) :=
  inferInstanceAs (Decidable (_ ∧ _))

instance (id : Uuid) (x : Step World BankCall) : Decidable (DecidesDeposit id x) :=
  inferInstanceAs (Decidable (_ ∨ _))

/-- The status of a deposit. -/
def Db.depositStatus (db : Db) (id : Uuid) : Option CheckDepositStatus :=
  (db.checkDeposits.lookup id).map CheckDeposit.status

/-- The step, if a decision on the deposit takes effect in it, finds the deposit pending. -/
def FindsUndecided (id : Uuid) (x : Step World BankCall) : Prop :=
  DecidesDeposit id x → x.pre.db.depositStatus id = some .pending

instance (id : Uuid) (x : Step World BankCall) : Decidable (FindsUndecided id x) :=
  inferInstanceAs (Decidable (_ → _))

/-- At most one decision takes effect, the customer is credited at most once, and not at all if
the deposit ends rejected. -/
def DecidedOnce (id : Uuid) (tr : List (Step World BankCall)) (w : World) : Prop :=
  AtMostOnce (DecidesDeposit id) tr ∧ AtMostOnce (CreditsDeposit id) tr ∧
    (w.db.depositStatus id = some .rejected → ∀ x ∈ tr, ¬ CreditsDeposit id x)

section Run

variable {env : Env} {w₀ : World} {tr : List (Step World BankCall)}
  {P : Pool World Error Answer BankCall} {id : Uuid}

theorem bank_follows (env : Env) (i : ℕ) (c : BankCall) (h : List World) :
    (bankProgram env i c).Follows ((bank env).rely i) ((bank env).guar i c) ((bank env).post c)
      h := by
  cases c with
  | inl c => exact program_follows env i c h
  | inr c => exact deposit_follows i c h

theorem bank_steps (hrun : Run (bankProgram env) (fun _ => True) w₀ tr P) :
    (bank env).Steps w₀ tr :=
  (hrun.follows (bank env) (fun i c h _ => bank_follows env i c h) rely_refl).1

/-- A call that is not a decision on a deposit moves nothing but money. -/
def BankFrame : BankCall → World → World → Prop
  | .inl c, w, w' => Framed c.deletes c.draws w.db w'.db
  | .inr _, _, _ => True

theorem bank_frames (hrun : Run (bankProgram env) (fun _ => True) w₀ tr P) :
    ∀ x ∈ tr, BankFrame x.call x.pre x.post := by
  refine (hrun.each (Q := BankFrame) fun i c _ => ?_).1
  cases c with
  | inl c => exact program_confined env i c
  | inr c => exact Prog.each_of_forall _ fun _ _ => trivial

/-! ## Decisions -/

/-- A step that decides the deposit is the write of a decision on it, which was seen pending. -/
theorem decides_change {h : List World} {x : Step World BankCall}
    (hframe : BankFrame x.call x.pre x.post)
    (hguar : ∀ c, x.call = .inr c → DepositChange h x.pre.db x.post.db c)
    (hdecides : DecidesDeposit id x) : ∃ d, DepositSeen h id d ∧ d.status = .pending ∧
      ∃ s, s ≠ .pending ∧ x.post.db.depositStatus id = some s ∧
        (CreditsDeposit id x → s = .approved) := by
  have hstatus : ∀ {db db' : Db} {id' : Uuid} {f : CheckDeposit → CheckDeposit},
      Table.Updated id' f db.checkDeposits db'.checkDeposits →
      ∃ d, db'.depositStatus id' = some (f d).status := by
    rintro db db' id' f ⟨d, -, hdb'⟩
    exact ⟨d, by simp [Db.depositStatus, hdb']⟩
  cases hcall : x.call with
  | inl c =>
    rw [hcall] at hframe
    rcases hdecides with hrow | hcredits
    · exact absurd (by rw [Framed.checkDeposits hframe]) hrow
    · simp [CreditsDeposit, hcall, approvesDeposit] at hcredits
  | inr c =>
    have hchange := hguar c hcall
    have hown : ∀ id', (∀ y, y ≠ id' → x.post.db.checkDeposits.lookup y =
        x.pre.db.checkDeposits.lookup y) → c.depositId = id' → id = id' := by
      intro id' hothers hid'
      by_contra hne
      rcases hdecides with hrow | ⟨happroves, -⟩
      · exact hrow (hothers id hne)
      · cases c with
        | approve ac =>
          rw [hcall] at happroves
          exact hne (Option.some.inj happroves.symm |>.trans hid')
        | reject rc => simp [hcall, approvesDeposit] at happroves
    cases hchange with
    | quiet hdb =>
      rcases hdecides with hrow | ⟨-, haccounts⟩
      · exact absurd (by rw [hdb]) hrow
      · exact absurd (by rw [hdb]) haccounts
    | @approved ac d hseen hpending happroved =>
      obtain rfl : id = ac.depositId := hown _ (fun y hy => by
        rw [happroved.deposits.lookup, if_neg hy]) rfl
      obtain ⟨d', hd'⟩ := hstatus happroved.deposits
      exact ⟨d, hseen, hpending, .approved, by simp, hd', fun _ => rfl⟩
    | @rejected rc d hseen hpending hrejected =>
      obtain rfl : id = rc.depositId := hown _ (fun y hy => by
        rw [hrejected.deposits.lookup, if_neg hy]) rfl
      obtain ⟨d', hd'⟩ := hstatus hrejected.deposits
      refine ⟨d, hseen, hpending, .rejected, by simp, hd', fun hcredits => ?_⟩
      simp [CreditsDeposit, hcall, approvesDeposit] at hcredits

/-- Steps that decide find the deposit pending: then it is open, or it was decided once. -/
theorem steps_decided_once (hsteps : (bank env).Steps w₀ tr)
    (hframes : ∀ x ∈ tr, BankFrame x.call x.pre x.post)
    (hfinds : ∀ x ∈ tr, FindsUndecided id x) {w : World} {past : List World}
    (hw : visited w₀ tr = w :: past) : AtMostOnce (DecidesDeposit id) tr ∧
      ((∀ x ∈ tr, ¬ DecidesDeposit id x) ∨ ∃ s, s ≠ .pending ∧ w.db.depositStatus id = some s ∧
        ((∃ x ∈ tr, CreditsDeposit id x) → s = .approved)) := by
  refine hsteps.induct (I := fun tr w => AtMostOnce (DecidesDeposit id) tr ∧
    ((∀ x ∈ tr, ¬ DecidesDeposit id x) ∨ ∃ s, s ≠ .pending ∧ w.db.depositStatus id = some s ∧
      ((∃ x ∈ tr, CreditsDeposit id x) → s = .approved))) ⟨.nil, .inl (by simp)⟩ ?_ w past hw
  rintro earlier x past' hx - hpast ⟨honce, hI⟩ hguar
  by_cases hdecides : DecidesDeposit id x
  · have hpending := hfinds x hx hdecides
    have hnone : ∀ y ∈ earlier, ¬ DecidesDeposit id y := by
      rcases hI with hnone | ⟨s, hs, hstatus, -⟩
      · exact hnone
      · rw [hpending] at hstatus
        exact absurd (Option.some.inj hstatus).symm hs
    obtain ⟨d, -, -, s, hs, hstatus, hcredits⟩ := decides_change (h := visited w₀ earlier)
      (hframes x hx) (fun c hc => by
        rw [hc] at hguar
        exact (hguar _ _ hpast).1) hdecides
    refine ⟨honce.cons fun _ => hnone, .inr ⟨s, hs, hstatus, ?_⟩⟩
    rintro ⟨y, hy, hcy⟩
    rcases List.mem_cons.1 hy with rfl | hy
    · exact hcredits hcy
    · exact absurd (.inr hcy) (hnone y hy)
  · have hrow : x.post.db.checkDeposits.lookup id = x.pre.db.checkDeposits.lookup id :=
      not_not.1 fun hne => hdecides (.inl hne)
    refine ⟨honce.cons fun h => absurd h hdecides, hI.imp (fun hnone y hy => ?_) ?_⟩
    · rcases List.mem_cons.1 hy with rfl | hy
      · exact hdecides
      · exact hnone y hy
    · rintro ⟨s, hs, hstatus, hcredits⟩
      refine ⟨s, hs, ?_, fun hex => hcredits ?_⟩
      · rw [Db.depositStatus, hrow]
        exact hstatus
      · obtain ⟨y, hy, hcy⟩ := hex
        rcases List.mem_cons.1 hy with rfl | hy
        · exact absurd (.inr hcy) hdecides
        · exact ⟨y, hy, hcy⟩

/-- The row of a deposit that no step decides is the one that was seen at any time. -/
theorem steps_undecided (hsteps : (bank env).Steps w₀ tr)
    (hnone : ∀ x ∈ tr, ¬ DecidesDeposit id x) {w : World} {past : List World}
    (hw : visited w₀ tr = w :: past) {d : CheckDeposit} (hseen : DepositSeen (visited w₀ tr) id d) :
    w.db.checkDeposits.lookup id = some d := by
  have hall : ∀ v ∈ visited w₀ tr, v.db.checkDeposits.lookup id =
      w₀.db.checkDeposits.lookup id := by
    refine hsteps.invariant (I := fun h => ∀ v ∈ h, v.db.checkDeposits.lookup id =
      w₀.db.checkDeposits.lookup id) (by simp) ?_
    intro x hx past' _ hI _ v hv
    rcases List.mem_cons.1 hv with rfl | hv
    · have hrow : x.post.db.checkDeposits.lookup id = x.pre.db.checkDeposits.lookup id :=
        not_not.1 fun hne => hnone x hx (.inl hne)
      rw [hrow, hI x.pre List.mem_cons_self]
    · exact hI v hv
  obtain ⟨v, hv, hd⟩ := hseen
  rw [hall w (by rw [hw]; exact List.mem_cons_self), ← hall v hv, hd]

end Run

/-- **Decided once.** In every interleaving of decisions on check deposits and calls of the
transfer services, a deposit is decided at most once, its customer is credited at most once, and
not if the deposit ends rejected, exactly when every decision that takes effect finds the deposit
pending. -/
theorem deposit_decided_once_iff (env : Env) (w₀ : World) (id : Uuid)
    (tr : List (Step World BankCall)) (P : Pool World Error Answer BankCall)
    (hrun : Run (bankProgram env) (fun _ => True) w₀ tr P) :
    DecidedOnce id tr P.state ↔ ∀ x ∈ tr, FindsUndecided id x := by
  have hsteps := bank_steps hrun
  have hframes := bank_frames hrun
  obtain ⟨past, hpast⟩ := hrun.visited_eq
  constructor
  · intro honce x hx hdecides
    obtain ⟨later, earlier, rfl⟩ := List.append_of_mem hx
    obtain ⟨hearlier, past', hpre, hguar⟩ := hsteps.split
    obtain ⟨d, hseen, hpending, -⟩ := decides_change (h := visited w₀ earlier) (hframes x hx)
      (fun c hc => by
        rw [hc] at hguar
        exact (hguar _ _ hpre).1) hdecides
    have htail := (List.pairwise_append.1 honce.1).2.1
    have hnone : ∀ y ∈ earlier, ¬ DecidesDeposit id y :=
      fun y hy => (List.pairwise_cons.1 htail).1 y hy hdecides
    rw [Db.depositStatus, steps_undecided hearlier hnone hpre hseen, ← hpending]
    rfl
  · intro hfinds
    obtain ⟨honce, hstate⟩ := steps_decided_once hsteps hframes hfinds hpast
    refine ⟨honce, honce.imp fun x _ hcredits => .inr hcredits, fun hrejected x hx hcredits => ?_⟩
    rcases hstate with hnone | ⟨s, -, hstatus, happroved⟩
    · exact hnone x hx (.inr hcredits)
    · rw [hrejected] at hstatus
      cases Option.some.inj hstatus
      cases happroved ⟨x, hx, hcredits⟩

/-- The bank with a check of 15.00 that Ann has deposited. -/
def sampleDeposited : World :=
  { sampleWorld with db := { sampleDb with
    checkDeposits := (∅ : Table Uuid CheckDeposit).insert 70
      ⟨1, 10, 1500, .pending, none, none, none, none⟩ } }

/-- An approval of the check, with a fresh id. -/
def sampleDepositApproval (fresh : Uuid) : BankCall := .inr (.approve ⟨9, 70, fresh, 0⟩)

/-- A rejection of the check. -/
def sampleDepositRejection : BankCall := .inr (.reject ⟨9, 70, "blurred", 0⟩)

/-- An approval, and a rejection after it. -/
def sampleDecisions : List (Choice BankCall) :=
  .call (sampleDepositApproval 200) :: List.replicate 8 (.step 0) ++
    .call sampleDepositRejection :: List.replicate 4 (.step 1)

theorem deposit_decided_once_sample :
    (exec (bankProgram sampleEnv) sampleDeposited sampleDecisions).2.state.db.balance 10 = 501500 ∧
      DecidedOnce 70 (exec (bankProgram sampleEnv) sampleDeposited sampleDecisions).1
        (exec (bankProgram sampleEnv) sampleDeposited sampleDecisions).2.state :=
  ⟨by decide +kernel, (deposit_decided_once_iff sampleEnv sampleDeposited 70 _ _
    (exec_run sampleDecisions fun _ _ => trivial)).2 (by decide +kernel)⟩

/-- Two approvals and a rejection that have all read the deposit before one of them writes. -/
def sampleDecisionsOverlap : List (Choice BankCall) :=
  [.call (sampleDepositApproval 200), .call (sampleDepositApproval 300),
    .call sampleDepositRejection, .step 0, .step 1, .step 2, .step 0, .step 1, .step 0, .step 1,
    .step 2]

/-- Ann is credited twice for a check that ends rejected. -/
theorem deposit_credited_twice :
    ¬ ∀ (env : Env) (w₀ : World) (id : Uuid) (tr : List (Step World BankCall))
        (P : Pool World Error Answer BankCall), w₀.db.depositStatus id = some .pending →
        Run (bankProgram env) (fun c => ∃ d, c = .inr d ∧ d.depositId = id) w₀ tr P →
        DecidedOnce id tr P.state := by
  intro h
  have hcalls : ∀ c, Choice.call c ∈ sampleDecisionsOverlap →
      ∃ d : DepositCall, c = .inr d ∧ d.depositId = 70 := by
    intro c hc
    simp only [sampleDecisionsOverlap, List.mem_cons, List.not_mem_nil, or_false,
      Choice.call.injEq, reduceCtorEq] at hc
    rcases hc with rfl | rfl | rfl <;> exact ⟨_, rfl, rfl⟩
  have hlast := (h sampleEnv sampleDeposited 70 _ _ (by decide)
    (exec_run sampleDecisionsOverlap hcalls)).2.2 (by decide +kernel)
  revert hlast
  decide +kernel

/-! ## The books -/

/-- The sum of the balances of all customer accounts. -/
def Db.customerFunds (db : Db) : ℤ := db.accounts.total Account.balanceCents

/-- The net credit of the sub-ledgers of all customer accounts. -/
def Db.subLedgers (db : Db) : ℤ := db.accounts.sum fun a _ => db.net (accountSubLedgerCode a)

/-- The step commits an approval of a deposit. -/
def CommitsApproval (x : Step World BankCall) : Prop :=
  (approvesDeposit x.call).isSome ∧ x.post.db.accounts.entries ≠ x.pre.db.accounts.entries

instance (x : Step World BankCall) : Decidable (CommitsApproval x) :=
  inferInstanceAs (Decidable (_ ∧ _))

/-- What the customers have beyond what the books say. -/
def Db.unledgered (db : Db) : ℤ := db.accounts.sum fun a _ => db.balance a - db.net (.account a)

section Books

variable {db db' : Db}

theorem unledgered_eq (db : Db) : db.unledgered = db.customerFunds - db.subLedgers := by
  have hfunds : db.customerFunds = db.accounts.sum fun a _ => db.balance a := by
    refine Table.sum_congr (f := fun _ => Account.balanceCents) fun a acct hacct => ?_
    rw [Db.balance, hacct]
  rw [Db.unledgered, Table.sum_sub, hfunds]
  rfl

/-- Balances that move as their sub-ledgers do leave the difference. -/
theorem unledgered_tied (htied : Tied db db')
    (hkeys : ∀ a, (db'.accounts.lookup a).isSome = (db.accounts.lookup a).isSome) :
    db'.unledgered = db.unledgered := by
  have hsum := Table.sum_keys_congr (fun a => db.balance a - db.net (.account a)) hkeys
  rw [Db.unledgered, Db.unledgered, ← hsum]
  refine Table.sum_congr fun a _ _ => ?_
  have ha := htied a
  omega

theorem Framed.keys {gone made : List Uuid} (h : Framed gone made db db') (a : Uuid) :
    (db'.accounts.lookup a).isSome = (db.accounts.lookup a).isSome := by
  have ha := congrArg Option.isSome (h.accounts a)
  rwa [Option.isSome_map, Option.isSome_map] at ha

/-- An approval adds the amount of the check to the difference. -/
theorem unledgered_approved {c : ApproveDepositCall} {d : CheckDeposit}
    (h : DepositApproved c d db db') : db'.unledgered = db.unledgered + d.amountCents := by
  have hbalance := h.balance.balance
  obtain ⟨acct, hacct, haccounts⟩ := h.balance
  have hnet : ∀ code, db'.net code = db.net code := by
    obtain ⟨A, T, D, rfl⟩ := h.others
    exact fun _ => rfl
  have hold := Table.sum_insert_old hacct
    { acct with balanceCents := acct.balanceCents + d.amountCents }
    fun a _ => db'.balance a - db'.net (.account a)
  have hchange := Table.sum_change (f := fun a _ => db.balance a - db.net (.account a))
    (g := fun a _ => db'.balance a - db'.net (.account a)) hacct fun a _ hne => by
      simp only [hbalance a, hnet, if_neg hne]
      omega
  have hself := hbalance d.accountId
  rw [if_pos rfl] at hself
  have hnetself := hnet (.account d.accountId)
  rw [Db.unledgered, haccounts, hold, hchange, Db.unledgered]
  omega

end Books

/-- Fees and checks that were seen are as they should be. -/
def InOrderSeen (h : List World) : Prop :=
  (∀ id t, Seen h id t → 0 ≤ t.feeCents) ∧ ∀ id d, DepositSeen h id d → 0 < d.amountCents

section Run

variable {env : Env} {w₀ : World} {tr : List (Step World BankCall)}

theorem InOrderSeen.step {h : List World} {w : World} (hI : InOrderSeen h)
    (htransfers : ∀ id t, w.db.transfers.lookup id = some t → 0 ≤ t.feeCents)
    (hdeposits : ∀ id d, w.db.checkDeposits.lookup id = some d → 0 < d.amountCents) :
    InOrderSeen (w :: h) := by
  constructor
  · rintro id t ⟨w', hw', ht⟩
    rcases List.mem_cons.1 hw' with rfl | hw'
    · exact htransfers id t ht
    · exact hI.1 id t ⟨w', hw', ht⟩
  · rintro id d ⟨w', hw', hd⟩
    rcases List.mem_cons.1 hw' with rfl | hw'
    · exact hdeposits id d hd
    · exact hI.2 id d ⟨w', hw', hd⟩

theorem step_inOrderSeen {x : Step World BankCall} {past : List World}
    (hcfg : env.cfg.FeesNonneg) (hguar : (bank env).guar x.tid x.call (x.pre :: past) x.post)
    (hframe : BankFrame x.call x.pre x.post) (hI : InOrderSeen (x.pre :: past)) :
    InOrderSeen (x.post :: x.pre :: past) := by
  have hpre : ∀ {id t}, x.pre.db.transfers.lookup id = some t → 0 ≤ t.feeCents :=
    fun {id t} ht => hI.1 id t ⟨x.pre, List.mem_cons_self, ht⟩
  have hpre' : ∀ {id d}, x.pre.db.checkDeposits.lookup id = some d → 0 < d.amountCents :=
    fun {id d} hd => hI.2 id d ⟨x.pre, List.mem_cons_self, hd⟩
  cases hcall : x.call with
  | inl c =>
    rw [hcall] at hguar hframe
    have hchange : Change env _ _ _ c := (hguar x.pre past rfl).1
    refine hI.step (fun id t ht => ?_) fun id d hd => ?_
    · rcases hchange.rowChange.origin ht with ⟨t₀, ht₀, hterms⟩ | ⟨ic, -, -, hadmitted⟩
      · rw [fee_of_terms hterms]
        exact hpre ht₀
      · obtain ⟨s, fx, toAccount, -, hvalid, rfl⟩ := hadmitted.row
        exact hcfg _ _ _ _ hvalid
    · rw [Framed.checkDeposits hframe] at hd
      exact hpre' hd
  | inr c =>
    rw [hcall] at hguar
    have hchange : DepositChange _ _ _ c := (hguar x.pre past rfl).1
    refine hI.step (fun id t ht => ?_) fun id d hd => ?_
    · rw [hchange.transfers] at ht
      exact hpre ht
    · obtain ⟨d₀, hd₀, hamount⟩ := hchange.amount hd
      rw [hamount]
      exact hpre' hd₀

/-- A step moves the difference between funds and books up, if it commits an approval, or leaves
it. -/
theorem step_unledgered {x : Step World BankCall} {past : List World} (hcfg : env.cfg.FeesNonneg)
    (hguar : (bank env).guar x.tid x.call (x.pre :: past) x.post)
    (hframe : BankFrame x.call x.pre x.post) (hseen : InOrderSeen (x.pre :: past)) :
    (CommitsApproval x ∧ x.pre.db.unledgered < x.post.db.unledgered) ∨
      (¬ CommitsApproval x ∧ x.post.db.unledgered = x.pre.db.unledgered) := by
  cases hcall : x.call with
  | inl c =>
    rw [hcall] at hguar hframe
    have hchange : Change env _ _ _ c := (hguar x.pre past rfl).1
    refine .inr ⟨by simp [CommitsApproval, hcall, approvesDeposit], ?_⟩
    exact unledgered_tied (hchange.tied hcfg hseen.1) (Framed.keys hframe)
  | inr c =>
    rw [hcall] at hguar
    have hchange : DepositChange _ _ _ c := (hguar x.pre past rfl).1
    cases hchange with
    | quiet hdb =>
      refine .inr ⟨fun hcommits => hcommits.2 ?_, ?_⟩
      · rw [hdb]
      · rw [hdb]
    | @approved ac d hd hpending happroved =>
      have hpositive := hseen.2 _ d hd
      have hmoved := unledgered_approved happroved
      refine .inl ⟨⟨by simp [hcall, approvesDeposit], fun hsame => ?_⟩, by omega⟩
      have haccounts : x.post.db.accounts = x.pre.db.accounts := AList.ext hsame
      have hself := happroved.balance.balance d.accountId
      rw [if_pos rfl, balance_of_accounts_eq haccounts] at hself
      omega
    | rejected _ _ hrejected =>
      refine .inr ⟨by simp [CommitsApproval, hcall, approvesDeposit], ?_⟩
      obtain ⟨D, hD⟩ := hrejected.others
      rw [hD]
      rfl

theorem steps_unledgered (hcfg : env.cfg.FeesNonneg) (hsteps : (bank env).Steps w₀ tr)
    (hframes : ∀ x ∈ tr, BankFrame x.call x.pre x.post) (hstart : InOrderSeen [w₀]) {w : World}
    {past : List World} (hw : visited w₀ tr = w :: past) :
    InOrderSeen (visited w₀ tr) ∧ w₀.db.unledgered ≤ w.db.unledgered ∧
      (w.db.unledgered = w₀.db.unledgered ↔ ∀ x ∈ tr, ¬ CommitsApproval x) := by
  refine hsteps.induct (I := fun tr w => InOrderSeen (visited w₀ tr) ∧
    w₀.db.unledgered ≤ w.db.unledgered ∧
    (w.db.unledgered = w₀.db.unledgered ↔ ∀ x ∈ tr, ¬ CommitsApproval x))
    ⟨hstart, le_refl _, by simp⟩ ?_ w past hw
  rintro earlier x past' hx - hpast ⟨hseen, hle, hiff⟩ hguar
  rw [hpast] at hguar hseen
  have hvisited : visited w₀ (x :: earlier) = x.post :: x.pre :: past' := by rw [← hpast]; rfl
  rw [hvisited]
  refine ⟨step_inOrderSeen hcfg hguar (hframes x hx) hseen, ?_⟩
  rcases step_unledgered hcfg hguar (hframes x hx) hseen with ⟨hcommits, hlt⟩ | ⟨hnot, heq⟩
  · refine ⟨by omega, fun h => by omega, fun h => ?_⟩
    exact absurd hcommits (h x List.mem_cons_self)
  · rw [heq]
    refine ⟨hle, hiff.trans ⟨fun h y hy => ?_, fun h y hy => h y (List.mem_cons_of_mem _ hy)⟩⟩
    rcases List.mem_cons.1 hy with rfl | hy
    · exact hnot
    · exact h y hy

end Run

/-- **Approved checks are not in the books.** Under a configuration that never quotes a negative
fee, in every interleaving of the calls of the transfer services, the edits of transactions and the
decisions on checks of positive amounts: the balances of all customer accounts together have moved
as their sub-ledgers exactly when no approval of a check was committed. -/
theorem deposits_ledgered_iff (env : Env) (hcfg : env.cfg.FeesNonneg) (w₀ : World)
    (hfees : ∀ id t, w₀.db.transfers.lookup id = some t → 0 ≤ t.feeCents)
    (hchecks : ∀ id d, w₀.db.checkDeposits.lookup id = some d → 0 < d.amountCents)
    (tr : List (Step World BankCall)) (P : Pool World Error Answer BankCall)
    (hrun : Run (bankProgram env) (fun _ => True) w₀ tr P) :
    P.state.db.customerFunds - w₀.db.customerFunds = P.state.db.subLedgers - w₀.db.subLedgers ↔
      ∀ x ∈ tr, ¬ CommitsApproval x := by
  have hstart : InOrderSeen [w₀] := by
    constructor
    · rintro id t ⟨w, hw, ht⟩
      obtain rfl := List.mem_singleton.1 hw
      exact hfees id t ht
    · rintro id d ⟨w, hw, hd⟩
      obtain rfl := List.mem_singleton.1 hw
      exact hchecks id d hd
  obtain ⟨past, hpast⟩ := hrun.visited_eq
  obtain ⟨-, -, hiff⟩ := steps_unledgered hcfg (bank_steps hrun) (bank_frames hrun) hstart hpast
  rw [← hiff, unledgered_eq, unledgered_eq]
  omega

/-- A payment of 20.00 from Ann to Bob, its settlement, and a rejection of Ann's check. -/
def sampleUndeposited : List (Choice BankCall) :=
  .call (.inl (.initiate (samplePay .p2p 20 100 2000 false))) :: List.replicate 16 (.step 0) ++
    .call (.inl (.process (sampleSettle 100 200))) :: List.replicate 8 (.step 1) ++
      .call sampleDepositRejection :: List.replicate 4 (.step 2)

theorem sampleDeposited_checks (id : Uuid) (d : CheckDeposit)
    (hd : sampleDeposited.db.checkDeposits.lookup id = some d) : 0 < d.amountCents := by
  simp only [sampleDeposited, Table.lookup_insert_ite] at hd
  split at hd
  · cases hd
    decide
  · cases hd

theorem deposits_ledgered_sample :
    (exec (bankProgram sampleEnv) sampleDeposited sampleUndeposited).2.state.db.balance 20 = 2000 ∧
      (exec (bankProgram sampleEnv) sampleDeposited sampleUndeposited).2.state.db.customerFunds -
          sampleDeposited.db.customerFunds =
        (exec (bankProgram sampleEnv) sampleDeposited sampleUndeposited).2.state.db.subLedgers -
          sampleDeposited.db.subLedgers :=
  ⟨by decide +kernel, (deposits_ledgered_iff sampleEnv (feesNonneg_of_feeMin (by decide))
    sampleDeposited (fun id t ht => absurd ht (sample_no_transfers id t)) sampleDeposited_checks _ _
    (exec_run sampleUndeposited fun _ _ => trivial)).2 (by decide +kernel)⟩

/-- An approved check of 15.00 is on Ann's account and in no sub-ledger. -/
theorem check_not_ledgered :
    ¬ ∀ (env : Env), env.cfg.FeesNonneg → ∀ (w₀ : World),
        (∀ id, w₀.db.transfers.lookup id = none) →
        (∀ id d, w₀.db.checkDeposits.lookup id = some d → 0 < d.amountCents) →
        ∀ (tr : List (Step World BankCall)) (P : Pool World Error Answer BankCall),
        Run (bankProgram env) (fun _ => True) w₀ tr P →
        P.state.db.customerFunds - w₀.db.customerFunds =
          P.state.db.subLedgers - w₀.db.subLedgers := by
  intro h
  have hlast := h sampleEnv (feesNonneg_of_feeMin (by decide)) sampleDeposited (fun _ => rfl)
    sampleDeposited_checks _ _ (exec_run sampleDecisions fun _ _ => trivial)
  revert hlast
  decide +kernel

end BankDemo
