import BankDemo.Properties.Overdraft

/-!
# Edits and the floor of balances

`patch` and `create` refuse to take a balance below zero, by a balance that they read before their
transaction; `delete` and `clearOverride` do not ask. So an edit leaves a balance at zero or above
when the balance has not fallen since the check, and when it covers what `delete` and
`clearOverride` take back (`edits_keep_floor`).
-/

namespace BankDemo

open Ledger Transfers Admin

/-! ## The condition -/

/-- The calls of an admin without `forceAllowNegative`, and those on transfers. -/
def Call.unforced : Call → Bool
  | .patch _ dto => !dto.forceAllowNegative
  | .create _ dto => !dto.forceAllowNegative
  | .delete _ | .clearOverride _ => true
  | c => !c.isEdit

/-- The newest of a thread's steps, if it is the one that commits, finds a balance that is not below
the one that the check read, or that covers what is taken back. -/
def Covered : Call → List (World × World) → Prop
  | .patch ec dto, [(w, _), (checked, _), (found, _), _, _] =>
    ∀ t ∈ findWithOverride ec.transactionId found.db, patchDelta dto t ≠ 0 →
      checked.db.balance t.row.accountId ≤ w.db.balance t.row.accountId
  | .create _ dto, [(w, _), (checked, _), _, _] =>
    checked.db.balance dto.accountId ≤ w.db.balance dto.accountId
  | .delete ec, [(w, _), (found, _), _, _] =>
    ∀ t ∈ findWithOverride ec.transactionId found.db,
      (effectiveOf t).amountCents ≤ w.db.balance t.row.accountId
  | .clearOverride ec, [(w, _), (found, _)] =>
    ∀ t ∈ findWithOverride ec.transactionId found.db,
      overrideDelta t ≤ w.db.balance t.row.accountId
  | _, _ => True

instance (c : Call) (own : List (World × World)) : Decidable (Covered c own) := by
  unfold Covered
  split <;> infer_instance

/-- The newest step moves no balance below zero. -/
def Solvent : List (World × World) → Prop
  | [] => True
  | (w, w') :: _ => ∀ a, w'.db.balance a ≠ w.db.balance a → 0 ≤ w'.db.balance a

/-- What a thread of a call guarantees about its steps. -/
def floorGuar (c : Call) (own : List (World × World)) : Prop :=
  c.isEdit = true → Covered c own → Solvent own

/-- No step changed the database. -/
def Unchanged (own : List (World × World)) : Prop := ∀ y ∈ own, y.2.db = y.1.db

/-- A call that is refused for the balance has changed nothing. -/
def floorPromise (own : List (World × World)) (r : Except Error Answer) : Prop :=
  ∀ projected offset, r = .error (.balanceWouldGoNegative projected offset) → Unchanged own

/-! ## Rules -/

section Rules

variable {env : Env} {i : ℕ} {c : Call} {own : List (World × World)} {α β : Type}

theorem solvent_of_same {w w' : World} (h : w'.db = w.db) : Solvent ((w, w') :: own) := by
  intro a ha
  rw [h] at ha
  exact absurd rfl ha

theorem floorGuar_same {w w' : World} (h : w'.db = w.db) : floorGuar c ((w, w') :: own) :=
  fun _ _ => solvent_of_same h

theorem unchanged_cons {w w' : World} (h : w'.db = w.db) (hown : Unchanged own) :
    Unchanged ((w, w') :: own) :=
  List.forall_mem_cons.2 ⟨h, hown⟩

theorem Quiet.does {p : Service Answer} (hp : Quiet p) (hn : p.NeverFails) :
    p.Does (floorGuar c) floorPromise own :=
  Prog.Each.does hp hn (fun _ _ _ h => floorGuar_same h.1) fun _ _ _ _ h => by cases h

/-- Events after a commit. -/
theorem Quiet.does_bind {p : Service α} {k : α → Service Answer} (hp : Quiet p)
    (hn : p.NeverFails) (hk : ∀ a own, (k a).Does (floorGuar c) floorPromise own) :
    (p >>= k).Does (floorGuar c) floorPromise own :=
  Prog.does_bind (Prog.Each.does hp hn (fun _ _ _ h => floorGuar_same h.1) fun own a => hk a own)

theorem does_query {f : Db → α} {k : α → Service Answer}
    (hk : ∀ w : World, (k (f w.db)).Does (floorGuar c) floorPromise ((w, w) :: own)) :
    (query f >>= k).Does (floorGuar c) floorPromise own :=
  fun w _ => ⟨floorGuar_same rfl, hk w⟩

/-- A transaction whose commit is solvent if it is covered, and then nothing that may be refused. -/
theorem does_commit {rows : List Uuid} {body : Tx α} {k : α → Service Answer}
    (hown : Unchanged own)
    (hbody : ∀ (w : World) r, body w.db = .ok r → Covered c ((w, { w with db := r.2 }) :: own) →
      Solvent ((w, { w with db := r.2 }) :: own))
    (hk : ∀ a own, (k a).Does (floorGuar c) floorPromise own) :
    (transaction i rows body >>= k).Does (floorGuar c) floorPromise own := by
  refine Prog.does_bind (transaction_does (fun w r hr => ?_) fun w e => ?_)
  · exact ⟨fun _ => hbody w r hr, hk r.1 _⟩
  · exact ⟨floorGuar_same rfl, fun _ _ _ => unchanged_cons rfl hown⟩

/-- The counter of calls: two steps. -/
theorem does_assertRate {actor : Uuid} {now : Instant} {k : Unit → Service Answer}
    (hk : ∀ y₁ y₂ : World × World, Unchanged [y₁, y₂] →
      (k ()).Does (floorGuar c) floorPromise [y₁, y₂]) :
    (assertRate env actor now >>= k).Does (floorGuar c) floorPromise [] := by
  refine Prog.does_bind (Prog.does_bind (Prog.does_read fun w => ⟨floorGuar_same rfl, ?_⟩))
  simp only
  split
  · exact Prog.does_throw fun _ _ h => by cases h
  · refine Prog.does_modify fun w' _ => ⟨floorGuar_same rfl, hk _ _ ?_⟩
    exact unchanged_cons rfl (unchanged_cons rfl fun y hy => absurd hy List.not_mem_nil)

/-- A row that has to be there. -/
theorem does_readTransaction {id : Uuid} {e : Error} {k : TransactionWithOverride → Service Answer}
    (he : ∀ projected offset, e ≠ .balanceWouldGoNegative projected offset)
    (hk : ∀ (w : World) t, findWithOverride id w.db = some t →
      (k t).Does (floorGuar c) floorPromise ((w, w) :: own)) :
    (readTransaction id e >>= k).Does (floorGuar c) floorPromise own := by
  unfold readTransaction
  rw [bind_assoc]
  refine does_query fun w => ?_
  cases ht : findWithOverride id w.db with
  | none => exact Prog.does_throw fun p s h => absurd (Except.error.inj h) (he p s)
  | some t => exact hk w t ht

end Rules

/-! ## The edits -/

section Edits

variable {env : Env} {i : ℕ} {own : List (World × World)}

theorem solvent_of_adjusted {a id : Uuid} {d : ℤ} {w : World} {db' : Db}
    (h : Adjusted a d id w.db db') (hd : d ≠ 0 → 0 ≤ w.db.balance a + d) :
    Solvent ((w, { w with db := db' }) :: own) := by
  intro x hx
  simp only [h.balance] at hx ⊢
  by_cases ha : a = x
  · subst ha
    rw [if_pos rfl] at hx ⊢
    exact hd fun h0 => hx (by rw [h0, add_zero])
  · rw [if_neg ha] at hx
    exact absurd (add_zero _) hx

theorem neverFails_emitTxUpdated (id : Uuid) (t : TransactionWithOverride) (hidden : Bool) :
    (emitTxUpdated id t hidden).NeverFails := by
  refine Prog.neverFails_bind (Prog.neverFails_read _) fun account => ?_
  cases account with
  | none => exact Prog.neverFails_pure ()
  | some a => exact Prog.neverFails_modify

theorem neverFails_emitBalanceIf (changed : Bool) (a : Uuid) :
    (emitBalanceIf changed a).NeverFails := by
  unfold emitBalanceIf
  split
  · exact emitBalance_neverFails a
  · exact Prog.neverFails_pure ()

theorem balance_of_lookup {db : Db} {a : Uuid} {acct : Account}
    (h : db.accounts.lookup a = some acct) : db.balance a = acct.balanceCents := by
  simp only [Db.balance, h]

/-- What follows the commit of a patch. -/
theorem patched_does (c : Call) (ec : EditCall) (a : Uuid) (changed : Bool) :
    (do
      let fresh ← readTransaction ec.transactionId rowGone
      emitTxUpdated ec.transactionId fresh false
      emitBalanceIf changed a
      return none : Service Answer).Does (floorGuar c) floorPromise own := by
  refine does_readTransaction (fun _ _ h => by cases h) fun w t _ => ?_
  refine Quiet.does (quiet_bind (quiet_emitTxUpdated _ t _) fun _ =>
    quiet_bind (quiet_emitBalanceIf _ _) fun _ => quiet_pure _) ?_
  exact Prog.neverFails_bind (neverFails_emitTxUpdated _ t _) fun _ =>
    Prog.neverFails_bind (neverFails_emitBalanceIf _ _) fun _ => Prog.neverFails_pure _

theorem patch_does (ec : EditCall) (dto : PatchDto) (hforce : dto.forceAllowNegative = false) :
    (program env i (.patch ec dto)).Does (floorGuar (.patch ec dto)) floorPromise [] := by
  simp only [program, silently, patch, bind_assoc, pure_bind]
  refine does_assertRate fun y₁ y₂ hown => ?_
  refine does_readTransaction (fun _ _ h => by cases h) fun found t ht => ?_
  have hfound := unchanged_cons (Eq.refl found.db) hown
  unfold checkPatch
  split
  · rename_i hd
    rw [bind_assoc]
    refine does_query fun checked => ?_
    have hchecked := unchanged_cons (Eq.refl checked.db) hfound
    cases hacct : checked.db.accounts.lookup t.row.accountId with
    | none => exact Prog.does_throw fun _ _ h => by cases h
    | some acct =>
      simp only [checkProjected]
      split
      · exact Prog.does_throw fun _ _ _ => hchecked
      · rename_i hfunds
        refine does_commit hchecked (fun w r hr hcovered => ?_) fun _ own =>
          patched_does _ ec _ _
        refine solvent_of_adjusted (patchTx_ok hr) fun hne => ?_
        have hkept := hcovered t ht hne
        rw [balance_of_lookup hacct] at hkept
        omega
  · rename_i hd
    have hzero : patchDelta dto t = 0 := by
      by_contra hne
      exact hd ⟨hne, hforce⟩
    refine does_commit hfound (fun w r hr _ => ?_) fun _ own => patched_does _ ec _ _
    exact solvent_of_adjusted (patchTx_ok hr) fun hne => absurd hzero hne

theorem create_does (ec : EditCall) (dto : CreateDto) (hforce : dto.forceAllowNegative = false) :
    (program env i (.create ec dto)).Does (floorGuar (.create ec dto)) floorPromise [] := by
  simp only [program, silently, create, bind_assoc]
  refine does_assertRate fun y₁ y₂ hown => does_query fun checked => ?_
  have hchecked := unchanged_cons (Eq.refl checked.db) hown
  cases hacct : checked.db.accounts.lookup dto.accountId with
  | none => exact Prog.does_throw fun _ _ h => by cases h
  | some account =>
    simp only [createOn]
    cases dto.amountCents with
    | none => exact Prog.does_throw fun _ _ h => by cases h
    | some amount =>
      simp only
      split
      · exact Prog.does_throw fun _ _ h => by cases h
      · simp only [createAmount, checkCreate, hforce, checkProjected, bind_assoc]
        split
        · rename_i hfalse
          cases hfalse
        · split
          · exact Prog.does_throw fun _ _ _ => hchecked
          · rename_i hfunds
            refine does_commit hchecked (fun w r hr hcovered => ?_) fun _ own => ?_
            · refine solvent_of_adjusted (createTx_ok hr) fun _ => ?_
              have hkept : checked.db.balance dto.accountId ≤ w.db.balance dto.accountId := hcovered
              rw [balance_of_lookup hacct] at hkept
              omega
            · refine (quiet_emit _).does_bind Prog.neverFails_modify fun _ own => ?_
              refine (quiet_emitBalance _).does_bind (emitBalance_neverFails _) fun _ own => ?_
              exact does_readTransaction (fun _ _ h => by cases h) fun w t _ =>
                Quiet.does (quiet_pure _) (Prog.neverFails_pure _)

theorem delete_does (ec : EditCall) :
    (program env i (.delete ec)).Does (floorGuar (.delete ec)) floorPromise [] := by
  simp only [program, silently, delete, bind_assoc]
  refine does_assertRate fun y₁ y₂ hown => ?_
  refine does_readTransaction (fun _ _ h => by cases h) fun found t ht => ?_
  have hfound := unchanged_cons (Eq.refl found.db) hown
  refine does_commit hfound (fun w r hr hcovered => ?_) fun _ own => ?_
  · refine solvent_of_adjusted (deleteTx_ok hr) fun _ => ?_
    have hback := hcovered t ht
    omega
  · refine (quiet_emit _).does_bind Prog.neverFails_modify fun _ own => ?_
    exact (quiet_emitBalanceIf _ _).does_bind (neverFails_emitBalanceIf _ _) fun _ own =>
      Quiet.does (quiet_pure _) (Prog.neverFails_pure _)

theorem clearOverride_does (ec : EditCall) :
    (program env i (.clearOverride ec)).Does (floorGuar (.clearOverride ec)) floorPromise [] := by
  simp only [program, silently, clearOverride, bind_assoc]
  refine does_readTransaction (fun _ _ h => by cases h) fun found t ht => ?_
  have hfound : Unchanged [(found, found)] :=
    unchanged_cons rfl fun y hy => absurd hy List.not_mem_nil
  split
  · exact Prog.does_throw fun _ _ h => by cases h
  · simp only [clearRead, bind_assoc]
    refine does_commit hfound (fun w r hr hcovered => ?_) fun _ own => patched_does _ ec _ _
    refine solvent_of_adjusted (clearTx_ok hr) fun _ => ?_
    have hback := hcovered t ht
    omega

theorem program_does {c : Call} (hc : c.unforced = true) :
    (program env i c).Does (floorGuar c) (fun own r => c.isEdit = true → floorPromise own r) [] := by
  cases c with
  | patch ec dto =>
    simp only [Call.unforced, Bool.not_eq_true'] at hc
    exact (patch_does ec dto hc).imp (fun _ h => h) fun _ _ h _ => h
  | create ec dto =>
    simp only [Call.unforced, Bool.not_eq_true'] at hc
    exact (create_does ec dto hc).imp (fun _ h => h) fun _ _ h _ => h
  | delete ec => exact (delete_does ec).imp (fun _ h => h) fun _ _ h _ => h
  | clearOverride ec => exact (clearOverride_does ec).imp (fun _ h => h) fun _ _ h _ => h
  | hide ec => cases hc
  | bulkShift superadmin ec ids days => cases hc
  | _ =>
    refine Prog.does_of_forall _ (fun own h => ?_) fun own r h => ?_
    · cases h
    · cases h

end Edits

/-! ## Runs -/

/-- **Edits keep the floor.** In every interleaving of edits without `forceAllowNegative` and calls on
transfers: if every commit of an edit finds a balance that has not fallen since its check, or that
covers what it takes back, then no edit takes a balance below zero; with no negative amounts in the
configuration and in the transfers at the start, no balance that was not negative ever is; and an
edit that is refused for the balance has changed nothing. -/
theorem edits_keep_floor (env : Env) (w₀ : World) (tr : List (Step World Call))
    (P : Pool World Error Answer Call)
    (hrun : Run (program env) (fun c => c.unforced = true) w₀ tr P)
    (hcovered : ∀ later x earlier, tr = later ++ x :: earlier →
      Covered x.call ((x.pre, x.post) :: own x.tid earlier)) :
    (∀ x ∈ tr, x.call.isEdit = true → ∀ a, x.post.db.balance a ≠ x.pre.db.balance a →
      0 ≤ x.post.db.balance a) ∧
    (env.cfg.TotalsNonneg → (∀ id t, w₀.db.transfers.lookup id = some t →
        0 ≤ t.amountCents ∧ 0 ≤ t.amountCents + t.feeCents) →
      ∀ w ∈ visited w₀ tr, ∀ a, 0 ≤ w.db.balance a → 0 ≤ P.state.db.balance a) ∧
    ∀ i c projected offset, c.isEdit = true →
      P.threads[i]? = some ⟨c, .fail (.balanceWouldGoNegative projected offset)⟩ →
      ∀ x ∈ tr, x.tid = i → x.post.db = x.pre.db := by
  obtain ⟨hguar, hthreads⟩ := hrun.does (G := fun _ => floorGuar) fun i c hc => program_does hc
  have hfloor : ∀ x ∈ tr, x.call.isEdit = true → ∀ a, x.post.db.balance a ≠ x.pre.db.balance a →
      0 ≤ x.post.db.balance a := by
    intro x hx hedit
    obtain ⟨later, earlier, hsplit⟩ := List.append_of_mem hx
    exact hguar later x earlier hsplit hedit (hcovered later x earlier hsplit)
  refine ⟨hfloor, fun hcfg hstart => ?_, fun i c projected offset hedit ht x hx htid => ?_⟩
  · obtain ⟨past, hpast⟩ := hrun.visited_eq
    refine steps_nonneg hrun.steps (steps_totals hcfg hrun.steps hstart) ?_ P.state past hpast
    intro x hx hedit a ha
    by_cases hsame : x.post.db.balance a = x.pre.db.balance a
    · rw [hsame]
      exact ha
    · exact hfloor x hx hedit a hsame
  · have hsame := hthreads i _ ht hedit projected offset rfl
    exact hsame (x.pre, x.post) (mem_own.2 ⟨x, hx, htid, rfl, rfl⟩)

theorem sample_nonneg (a : Uuid) : 0 ≤ sampleWorld.db.balance a := by
  simp only [Db.balance, sampleWorld, sampleDb, Table.lookup_insert_ite]
  by_cases hbob : a = 20
  · simp [hbob]
  · by_cases hann : a = 10
    · simp [hann]
    · simp [hbob, hann]

/-- All steps of a run are covered. -/
def coveredSteps : List (Step World Call) → Bool
  | [] => true
  | x :: earlier => Covered x.call ((x.pre, x.post) :: own x.tid earlier) && coveredSteps earlier

theorem covered_of_coveredSteps {tr : List (Step World Call)} (h : coveredSteps tr = true) :
    ∀ later x earlier, tr = later ++ x :: earlier →
      Covered x.call ((x.pre, x.post) :: own x.tid earlier) := by
  intro later x earlier hsplit
  subst hsplit
  induction later with
  | nil =>
    simp only [List.nil_append, coveredSteps, Bool.and_eq_true, decide_eq_true_eq] at h
    exact h.1
  | cons y later ih =>
    simp only [List.cons_append, coveredSteps, Bool.and_eq_true] at h
    exact ih h.2

/-- A credit of 100.00 for Ann. -/
def sampleBonus : CreateDto where
  accountId := 10
  amountCents := some 10000
  occurredAt := 0
  description := "Bonus"
  category := .other
  status := .posted
  kind := none
  forceAllowNegative := false

/-- The credit is made, Ann pays Bob, and the credit is deleted. -/
def sampleUndone (amountCents : ℤ) : List Call :=
  [.create ⟨9, 50, "bonus", 0⟩ sampleBonus, .initiate (samplePay .p2p 20 100 amountCents false),
    .delete ⟨9, 50, "mistake", 0⟩]

theorem sampleUndone_run (amountCents : ℤ) :
    Run (program sampleEnv) (fun c => c.unforced = true) sampleWorld
      (exec (program sampleEnv) sampleWorld (oneByOne (sampleUndone amountCents))).1
      (exec (program sampleEnv) sampleWorld (oneByOne (sampleUndone amountCents))).2 := by
  refine exec_run _ fun c hc => ?_
  have hmem := mem_oneByOne hc
  simp only [sampleUndone, List.mem_cons, List.not_mem_nil, or_false] at hmem
  rcases hmem with rfl | rfl | rfl <;> rfl

theorem edits_keep_floor_undone :
    (∀ a, 0 ≤ sampleWorld.db.balance a → 0 ≤ (exec (program sampleEnv) sampleWorld
      (oneByOne (sampleUndone 2000))).2.state.db.balance a) ∧
    (exec (program sampleEnv) sampleWorld (oneByOne (sampleUndone 2000))).2.state.db.balance 10 =
      498000 := by
  have hcfg : sampleEnv.cfg.TotalsNonneg := totalsNonneg_of_min (by decide) (by decide)
  obtain ⟨-, hnonneg, -⟩ := edits_keep_floor sampleEnv sampleWorld _ _ (sampleUndone_run 2000)
    (covered_of_coveredSteps (by decide +kernel))
  refine ⟨hnonneg hcfg (fun id t ht => absurd ht (sample_no_transfers id t)) sampleWorld ?_,
    by decide +kernel⟩
  simp [visited]

/-- Ann spends the credit before it is deleted, and the deletion takes her to -50.00. -/
theorem delete_below_zero :
    ¬ ∀ (env : Env) (w₀ : World) (tr : List (Step World Call)) (P : Pool World Error Answer Call),
      (∀ a, 0 ≤ w₀.db.balance a) → Run (program env) (fun c => c.unforced = true) w₀ tr P →
      ∀ x ∈ tr, x.call.isEdit = true → ∀ a, x.post.db.balance a ≠ x.pre.db.balance a →
        0 ≤ x.post.db.balance a := by
  intro h
  have hstep : ∃ x ∈ (exec (program sampleEnv) sampleWorld (oneByOne (sampleUndone 505000))).1,
      x.call.isEdit = true ∧ x.post.db.balance 10 ≠ x.pre.db.balance 10 ∧
        x.post.db.balance 10 < 0 := by decide +kernel
  obtain ⟨x, hx, hedit, hmoved, hbelow⟩ := hstep
  have hfloor := h sampleEnv sampleWorld _ _ sample_nonneg (sampleUndone_run 505000) x hx hedit 10
    hmoved
  omega

end BankDemo
