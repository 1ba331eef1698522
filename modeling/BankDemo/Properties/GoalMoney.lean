import BankDemo.RoundUps.Service
import BankDemo.System.Atomic
import BankDemo.System.Frame

/-!
# Goal money is backed

A contribution to goals is an internal transfer and then an increase of the goals. When its key was
used before, `initiate` answers with the old transfer, no money moves and the goals are increased
all the same (`goal_raised_by_replay`).

`goals_backed`: over every sequence of contributions, weekly contributions and round-up sweeps whose
keys are new, and whose splits name goals of the user, what is added to the goals of a user is what
the new transfers of the user have moved.
-/

namespace BankDemo

open Ledger Transfers Goals Autosave RoundUps

/-! ## The calls -/

/-- The calls that add to goals. -/
inductive SavingsCall
  | contribute (c : ContributeCall)
  | weekly (c : WeeklyCall)
  | roundUps (c : SweepCall) (userId : Uuid) (total : ℤ)

/-- The program of a call. -/
def savingsProgram (env : Env) : SavingsCall → Service Answer
  | .contribute c => silently (contribute env 0 c)
  | .weekly c => silently (applyWeeklyContribution env 0 c)
  | .roundUps c userId total => silently (applyForUser env 0 c userId total)

/-- What the transfers of a user that are new since `db₀` have moved. -/
def movedSince (db₀ db : Db) (userId : Uuid) : ℤ :=
  db.transfers.sum fun id t =>
    if db₀.transfers.lookup id = none ∧ t.initiatedByUserId = userId then t.amountCents else 0

/-- No transfer of the user has the key. -/
def KeyUnused (db : Db) (key : String) (userId : Uuid) : Prop :=
  ∀ e ∈ db.transfers.entries, e.2.idempotencyKey = key → e.2.initiatedByUserId ≠ userId

/-- The splits are over goals of the user. -/
def SplitsOwned (db : Db) (userId : Uuid) (splits : List GoalSplit) : Prop :=
  ∀ s ∈ splits, (db.goals.lookup s.goalId).map Goal.userId = some userId

/-- The key of the call is new, and there are goals to add to. -/
def Fundable (db : Db) : SavingsCall → Prop
  | .contribute c => KeyUnused db c.idempotencyKey c.userId
  | .weekly c => KeyUnused db c.key c.userId ∧ SplitsOwned db c.userId c.config.splits
  | .roundUps c userId _ => KeyUnused db (c.key userId) userId ∧
      ∀ config ∈ db.autosaveConfigs.lookup userId,
        config.splits ≠ [] ∧ SplitsOwned db userId config.splits

instance (db : Db) (key : String) (userId : Uuid) : Decidable (KeyUnused db key userId) :=
  inferInstanceAs (Decidable (∀ e ∈ _, _))

instance (db : Db) (userId : Uuid) (splits : List GoalSplit) :
    Decidable (SplitsOwned db userId splits) :=
  inferInstanceAs (Decidable (∀ s ∈ _, _))

instance (db : Db) : (c : SavingsCall) → Decidable (Fundable db c)
  | .contribute c => inferInstanceAs (Decidable (KeyUnused db c.idempotencyKey c.userId))
  | .weekly c => inferInstanceAs (Decidable (KeyUnused db c.key c.userId ∧ _))
  | .roundUps c userId _ => inferInstanceAs (Decidable (KeyUnused db (c.key userId) userId ∧ _))

/-- The call did nothing to goals and transfers, or added to the goals of a user what a new transfer
of the user moves. -/
inductive Funded (db db' : Db) : Prop
  | nothing (htransfers : db'.transfers = db.transfers)
      (hsaved : ∀ u, savedCents db' u = savedCents db u)
  | moved {id : Uuid} {t : Transfer} (hcreated : Table.Created id t db.transfers db'.transfers)
      (hsaved : ∀ u, savedCents db' u =
        savedCents db u + if t.initiatedByUserId = u then t.amountCents else 0)

/-! ## One call -/

section Calls

variable {env : Env} {i : ℕ} {w : World} {u : Uuid}

theorem Funded.refl (db : Db) : Funded db db := .nothing rfl fun _ => rfl

/-- A transfer that puts money aside was made, or nothing happened; the goals are as they were. -/
def PutAside (id u : Uuid) (amountCents : ℤ) (db : Db) (done : Bool) (db' : Db) : Prop :=
  if done then db'.goals = db.goals ∧ ∃ t, Table.Created id t db.transfers db'.transfers ∧
    t.initiatedByUserId = u ∧ t.amountCents = amountCents
  else db' = db

/-- Under a new key, `initiate` throws and leaves everything, or makes the transfer. -/
theorem putAside_yields {d : Drawn} {key : String} {source savings : Uuid} {amountCents : ℤ}
    {note : String} (hunused : KeyUnused w.db key u) :
    Yields w (initiate env i (putAside d u key source savings amountCents note)) fun r db' =>
      PutAside d.transferId u amountCents w.db r.toBool db' := by
  have hgoals : ((initiate env i
      (putAside d u key source savings amountCents note)).run w).2.db.goals = w.db.goals := by
    have hconfined : Confined [] [d.pendingTxId]
        (initiate env i (putAside d u key source savings amountCents note)) :=
      initiate_confined env _ (List.mem_singleton.2 rfl)
    exact Framed.goals (hconfined.run (fun w => .refl w.db) Framed.trans w)
  have hanswers : Yields w (initiate env i (putAside d u key source savings amountCents note))
    (Answers env _ w.db) := initiate_yields _ w
  unfold Yields at hanswers ⊢
  unfold Answers at hanswers
  split at hanswers
  · rename_i e he
    rw [he]
    exact hanswers
  · rename_i res hres
    rw [hres]
    rcases hanswers with ⟨-, id, t, hfound, huser⟩ | ⟨t, hadmitted, hinitiated⟩
    · -- the answer of an old transfer: the key was used
      obtain ⟨ht, hkey⟩ := Table.findRow_some hfound
      exact absurd huser (hunused ⟨id, t⟩ (Table.mem_entries_iff.2 ht) (of_decide_eq_true hkey))
    · obtain ⟨s, fx, toAccount, hs, -, rfl⟩ := hadmitted.row
      simp only [resolveSettlement, putAside, pure, Except.pure, Except.ok.injEq,
        Prod.mk.injEq] at hs
      exact ⟨hgoals, _, hinitiated.transfers, rfl, hs.1.symm⟩

/-- Under a new key, what comes after `tryInitiate` finds the database as it was, or the transfer
made. -/
theorem tryInitiate_yields {d : Drawn} {key : String} {source savings : Uuid} {amountCents : ℤ}
    {note : String} {α : Type} {k : Bool → Service α} {Q : Except Error α → Db → Prop}
    (hunused : KeyUnused w.db key u) (hfailed : ∀ w', w'.db = w.db → Yields w' (k false) Q)
    (hmoved : ∀ w', PutAside d.transferId u amountCents w.db true w'.db → Yields w' (k true) Q) :
    Yields w (tryInitiate env i (putAside d u key source savings amountCents note) >>= k) Q := by
  refine yields_bind (yields_tryCatch (yields_bind ((putAside_yields hunused).imp ?_)))
  intro r db' hr
  cases r with
  | error e =>
    rintro w₁ rfl w₂ hw₂
    exact hfailed w₂ (hw₂.trans hr)
  | ok res =>
    rintro w₁ rfl w₂ hw₂
    refine hmoved w₂ ?_
    rw [hw₂]
    exact hr

/-- Shares for goals of one user are all added. -/
theorem addToGoals_yields (shares : List Allocation)
    (howned : ∀ a ∈ shares, (w.db.goals.lookup a.goalId).map Goal.userId = some u) :
    Yields w (addToGoals i shares) fun r db' => r = .ok () ∧ db'.transfers = w.db.transfers ∧
      ∀ u', savedCents db' u' = savedCents w.db u' + if u = u' then shareSum shares else 0 := by
  induction shares generalizing w with
  | nil =>
    refine yields_pure ⟨rfl, rfl, fun u' => ?_⟩
    simp [shareSum]
  | cons a shares ih =>
    obtain ⟨goal, hgoal, howner⟩ := Option.map_eq_some_iff.1 (howned a List.mem_cons_self)
    obtain ⟨r, hr, hraised⟩ := incrementGoal_goes hgoal a.cents
    refine yields_bind (yields_transaction (fun e he => ?_) fun r' hr' => ?_)
    · rw [hr] at he
      cases he
    · obtain rfl := Except.ok.inj (hr.symm.trans hr')
      rintro w' hw'
      have howned' : ∀ b ∈ shares, (w'.db.goals.lookup b.goalId).map Goal.userId = some u := by
        intro b hb
        obtain ⟨old, hold, hu⟩ := Option.map_eq_some_iff.1 (howned b (List.mem_cons_of_mem _ hb))
        obtain ⟨new, hnew, hu'⟩ := hraised.owner hold
        rw [hw', hnew, Option.map_some, hu', hu]
      refine (ih howned').imp fun r'' db' hdone => ?_
      obtain ⟨hok, htransfers, hsaved⟩ := hdone
      refine ⟨hok, ?_, fun u' => ?_⟩
      · obtain ⟨G, hG, -⟩ := hraised
        rw [htransfers, hw', hG]
      · rw [hsaved u', hw', hraised.savedCents hgoal, howner]
        simp only [shareSum, List.map_cons, List.sum_cons]
        split <;> omega

theorem savedCents_of_goals {db db' : Db} (h : db'.goals = db.goals) (u : Uuid) :
    savedCents db' u = savedCents db u := by
  rw [savedCents, h, savedCents]

/-- The shares of an amount that was put aside are added to goals of the user. -/
theorem funded_of_shares {id : Uuid} {total : ℤ} {splits : List GoalSplit} {db : Db}
    (hput : PutAside id u total db true w.db) (hsplits : splits ≠ [])
    (howned : SplitsOwned db u splits) :
    Yields w (addToGoals i (allocateCents total splits)) fun r db' => r = .ok () ∧
      Funded db db' := by
  obtain ⟨hgoals, t, hcreated, huser, hamount⟩ := hput
  have hshares : ∀ a ∈ allocateCents total splits,
      (w.db.goals.lookup a.goalId).map Goal.userId = some u := by
    intro a ha
    obtain ⟨s, hs, hsa⟩ := goalId_of_mem_allocateCents ha
    rw [hgoals, ← hsa]
    exact howned s hs
  refine (addToGoals_yields _ hshares).imp fun r db' hdone => ?_
  obtain ⟨hok, htransfers, hsaved⟩ := hdone
  rw [← htransfers] at hcreated
  refine ⟨hok, .moved hcreated fun u' => ?_⟩
  rw [hsaved u', savedCents_of_goals hgoals, allocateCents_sum total hsplits, huser, hamount]

/-- A goal that may be added to is the user's. -/
theorem openGoal_yields {g : Uuid} : Yields w (openGoal u g) fun r db' => db' = w.db ∧
    ∀ goal, r = .ok goal → w.db.goals.lookup g = some goal ∧ goal.userId = u := by
  refine yields_query ?_
  cases hgoal : w.db.goals.lookup g with
  | none => exact yields_throw ⟨rfl, fun _ h => by cases h⟩
  | some goal =>
    simp only
    split
    · exact yields_throw ⟨rfl, fun _ h => by cases h⟩
    · rename_i howner
      split
      · exact yields_throw ⟨rfl, fun _ h => by cases h⟩
      · refine yields_pure ⟨rfl, fun goal' h => ?_⟩
        cases h
        exact ⟨rfl, not_not.1 howner⟩

theorem contribute_funded (c : ContributeCall)
    (hunused : KeyUnused w.db c.idempotencyKey c.userId) :
    Yields w (contribute env i c) fun _ db' => Funded w.db db' := by
  refine yields_bind (openGoal_yields.imp fun r db' hr => ?_)
  obtain ⟨rfl, hgoal⟩ := hr
  cases r with
  | error e => exact .refl _
  | ok goal =>
    obtain ⟨hgoal, howner⟩ := hgoal goal rfl
    intro w₁ hw₁
    rw [← hw₁] at hgoal hunused ⊢
    refine Quiet.yields_bind (quiet_contributionAccounts _ _) (fun savingsId w₂ hw₂ => ?_)
      fun _ => .refl _
    rw [← hw₂] at hgoal hunused ⊢
    refine yields_bind ((putAside_yields hunused).imp fun r db₃ hput => ?_)
    cases r with
    | error e =>
      obtain rfl : db₃ = w₂.db := hput
      exact .refl _
    | ok res =>
      obtain ⟨hgoals, t, hcreated, huser, hamount⟩ := hput
      rintro w₃ rfl
      -- the goal is still there
      rw [← hgoals] at hgoal
      obtain ⟨r, hr, hraised⟩ := incrementGoal_goes hgoal c.amountCents
      refine yields_bind (yields_transaction (fun e he => ?_) fun r' hr' => ?_)
      · rw [hr] at he
        cases he
      · obtain rfl := Except.ok.inj (hr.symm.trans hr')
        intro w₄ hw₄
        have htransfers : w₄.db.transfers = w₃.db.transfers := by
          obtain ⟨G, hG, -⟩ := hraised
          rw [hw₄, hG]
        rw [← htransfers] at hcreated
        refine yields_pure (.moved hcreated fun u' => ?_)
        rw [hw₄, hraised.savedCents hgoal, savedCents_of_goals hgoals, howner, huser, hamount]

theorem applyWeeklyContribution_funded (c : WeeklyCall)
    (hunused : KeyUnused w.db c.key c.userId)
    (howned : SplitsOwned w.db c.userId c.config.splits) :
    Yields w (applyWeeklyContribution env i c) fun _ db' => Funded w.db db' := by
  unfold applyWeeklyContribution
  split
  · exact yields_pure (.refl _)
  · rename_i total _
    split
    · exact yields_pure (.refl _)
    · rename_i hgate
      have hsplits : c.config.splits ≠ [] := by
        intro hnil
        simp [hnil] at hgate
      refine Quiet.yields_bind (quiet_savingsRoute _ _) (fun route w₁ hw₁ => ?_) fun _ => .refl _
      rw [← hw₁] at hunused howned ⊢
      cases route with
      | none => exact yields_pure (.refl _)
      | some route =>
        refine tryInitiate_yields hunused (fun w₂ hsame => ?_) fun w₂ hput => ?_
        · refine yields_pure ?_
          rw [hsame]
          exact .refl _
        · exact (funded_of_shares hput hsplits howned).imp fun _ _ h => h.2

theorem applyForUser_funded (c : SweepCall) (total : ℤ) (hunused : KeyUnused w.db (c.key u) u)
    (hconfig : ∀ config ∈ w.db.autosaveConfigs.lookup u,
      config.splits ≠ [] ∧ SplitsOwned w.db u config.splits) :
    Yields w (applyForUser env i c u total) fun _ db' => Funded w.db db' := by
  refine yields_query ?_
  cases hlookup : w.db.autosaveConfigs.lookup u with
  | none => exact yields_pure (.refl _)
  | some config =>
    obtain ⟨hsplits, howned⟩ := hconfig config hlookup
    simp only
    split
    · exact yields_pure (.refl _)
    · refine Quiet.yields_bind (quiet_savingsRoute _ _) (fun route w₁ hw₁ => ?_) fun _ => .refl _
      rw [← hw₁] at hunused howned ⊢
      cases route with
      | none => exact yields_pure (.refl _)
      | some route =>
        refine tryInitiate_yields hunused (fun w₂ hsame => ?_) fun w₂ hput => ?_
        · refine yields_pure ?_
          rw [hsame]
          exact .refl _
        · simp only [Bool.not_true, Bool.false_eq_true, if_false]
          refine yields_bind ((funded_of_shares hput hsplits howned).imp fun r db₃ hdone => ?_)
          obtain ⟨rfl, hfunded⟩ := hdone
          rintro w₃ rfl
          -- the mark on the rows touches neither goals nor transfers
          refine yields_bind (yields_transaction (fun e he => by cases he) fun r hr => ?_)
          cases hr
          intro w₄ hw₄
          refine yields_pure ?_
          rw [hw₄]
          cases hfunded with
          | nothing htransfers hsaved => exact .nothing htransfers hsaved
          | moved hcreated hsaved => exact .moved hcreated hsaved

/-- What a call on goals does, when its key is new and there are goals to add to. -/
theorem savings_funded (c : SavingsCall) (hc : Fundable w.db c) :
    Funded w.db ((savingsProgram env c).run w).2.db := by
  have hdone : ∀ {α : Type} {p : Service α}, (Yields w p fun _ db' => Funded w.db db') →
      Yields w (silently p) fun _ db' => Funded w.db db' := by
    intro α p hp
    refine yields_bind (hp.imp fun r db' hr => ?_)
    cases r with
    | ok a =>
      rintro w' rfl
      exact hr
    | error e => exact hr
  cases c with
  | contribute c => exact hdone (contribute_funded c hc)
  | weekly c => exact hdone (applyWeeklyContribution_funded c hc.1 hc.2)
  | roundUps c u total => exact hdone (applyForUser_funded c total hc.1 hc.2)

end Calls

/-! ## Sequences of calls -/

section Sequences

variable {db₀ db db' : Db}

theorem movedSince_self (db : Db) (u : Uuid) : movedSince db db u = 0 := by
  unfold movedSince
  rw [Table.sum_congr (g := fun _ _ => 0)]
  · simp [Table.sum]
  · intro id t ht
    rw [if_neg]
    rintro ⟨hnone, -⟩
    rw [ht] at hnone
    cases hnone

/-- A call keeps the transfers, and adds to the goals what it moves. -/
theorem Funded.step (h : Funded db db') (hold : ∀ id, db.transfers.lookup id = none →
    db₀.transfers.lookup id = none) : (∀ id, db'.transfers.lookup id = none →
      db₀.transfers.lookup id = none) ∧ ∀ u, savedCents db' u - savedCents db u =
        movedSince db₀ db' u - movedSince db₀ db u := by
  cases h with
  | nothing htransfers hsaved =>
    refine ⟨fun id => by rw [htransfers]; exact hold id, fun u => ?_⟩
    rw [hsaved u, movedSince, htransfers, movedSince]
    omega
  | @moved id t hcreated hsaved =>
    refine ⟨fun id' hnone => hold id' ?_, fun u => ?_⟩
    · rw [hcreated.lookup] at hnone
      split at hnone
      · cases hnone
      · exact hnone
    · rw [hsaved u, movedSince, hcreated.2, Table.sum_insert_new hcreated.1, movedSince]
      simp only [hold id hcreated.1, true_and]
      omega

end Sequences

/-- **Goal money is backed.** Over every sequence of contributions to goals, weekly contributions
and round-up sweeps, of any amounts, whose keys the user has not used before and whose splits name
goals of the user: what is added to the goals of a user is the sum of the new transfers of that
user. -/
theorem goals_backed (env : Env) (w₀ w : World) (tr : List (Step World SavingsCall))
    (hseq : Serial (savingsProgram env) w₀ tr w) (hfund : ∀ x ∈ tr, Fundable x.pre.db x.call)
    (u : Uuid) : savedCents w.db u - savedCents w₀.db u = movedSince w₀.db w.db u := by
  have hrun : (∀ id, w.db.transfers.lookup id = none → w₀.db.transfers.lookup id = none) ∧
      ∀ u, savedCents w.db u - savedCents w₀.db u = movedSince w₀.db w.db u := by
    induction hseq with
    | start => exact ⟨fun _ h => h, fun u => by rw [movedSince_self]; omega⟩
    | @call tr w c seq ih =>
      obtain ⟨hold, hsaved⟩ := ih fun x hx => hfund x (List.mem_cons_of_mem _ hx)
      have hfunded : Funded w.db ((savingsProgram env c).run w).2.db :=
        savings_funded c (hfund _ List.mem_cons_self)
      obtain ⟨hold', hstep⟩ := hfunded.step hold
      refine ⟨hold', fun u => ?_⟩
      have hu := hsaved u
      have hu' := hstep u
      omega
  exact hrun.2 u

/-- Ann adds to a goal as transfer `id`. -/
def sampleContribution (id : Uuid) (key : String) (amountCents : ℤ) : SavingsCall :=
  .contribute ⟨1, 80, key, 10, amountCents, sampleDrawn id⟩

/-- A contribution of 20.00, one of more than Ann has, a weekly one of 10.01 and a sweep of 5.40. -/
def sampleSavings : List SavingsCall :=
  [sampleContribution 100 "trip" 2000, sampleContribution 110 "more" 900000,
    .weekly ⟨1, ⟨true, true, none, [⟨80, 50⟩, ⟨81, 50⟩], some 1001⟩, sampleDrawn 120⟩,
    .roundUps (sampleSweep 130) 1 540]

theorem goals_backed_sample :
    savedCents (serially (savingsProgram sampleEnv) sampleSaver sampleSavings).2.db 1 = 3541 ∧
      savedCents (serially (savingsProgram sampleEnv) sampleSaver sampleSavings).2.db 1 -
          savedCents sampleSaver.db 1 =
        movedSince sampleSaver.db
          (serially (savingsProgram sampleEnv) sampleSaver sampleSavings).2.db 1 :=
  ⟨by decide +kernel, goals_backed sampleEnv sampleSaver _ _
    (serially_serial (savingsProgram sampleEnv) sampleSavings) (by decide +kernel) 1⟩

/-- A contribution of 20.00 that is sent twice under its key moves 20.00 and adds 40.00. -/
theorem goal_raised_by_replay :
    ¬ ∀ (env : Env) (w₀ w : World) (tr : List (Step World SavingsCall)),
        Serial (savingsProgram env) w₀ tr w →
        ∀ u, savedCents w.db u - savedCents w₀.db u = movedSince w₀.db w.db u := by
  intro h
  have hlast := h sampleEnv sampleSaver _ _ (serially_serial (savingsProgram sampleEnv)
    [sampleContribution 100 "trip" 2000, sampleContribution 110 "trip" 2000]) 1
  revert hlast
  decide +kernel

end BankDemo
