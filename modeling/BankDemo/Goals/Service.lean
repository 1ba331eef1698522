import BankDemo.Transfers.Service

/-!
# Goals

A goal is a label on savings: `GoalsService.contribute` moves money to the user's savings account by
an internal transfer, and then adds the amount to `currentCents` of the goal. The two are separate
steps, and nothing of what `initiate` answers is looked at in between.
-/

namespace BankDemo.Goals

open Transfers

/-- What `initiate` takes beside the request: the answers of `FxService.convert`, the ids it draws,
the time, and whether the queue can be reached. -/
structure Drawn where
  convert : ℤ → String → Except Error FxConversion
  transferId : Uuid
  pendingTxId : Uuid
  now : Instant
  queueUp : Bool

/-- The internal transfer that puts money aside. -/
def putAside (d : Drawn) (userId : Uuid) (idempotencyKey : String)
    (fromAccountId toAccountId : Uuid) (amountCents : ℤ) (note : String) : InitiateCall where
  userId
  idempotencyKey
  dto := {
    fromAccountId
    toAccountId := some toAccountId
    externalRef := none
    kind := .internal
    amountCents
    instant := false
    note := some note
    wireDetails := none
    sendCurrency := none
    sendAmountMinor := none }
  convert := d.convert
  transferId := d.transferId
  pendingTxId := d.pendingTxId
  now := d.now
  queueUp := d.queueUp

/-- `goal.update` with `currentCents: { increment: cents }`: the row it leaves. -/
def incrementGoal (id : Uuid) (cents : ℤ) : Tx Goal := fun db =>
  match db.goals.lookup id with
  | none => .error .recordNotFound
  | some goal =>
    let goal := { goal with currentCents := goal.currentCents + cents }
    .ok (goal, { db with goals := db.goals.insert id goal })

/-- A call of `contribute`. -/
structure ContributeCall where
  userId : Uuid
  goalId : Uuid
  idempotencyKey : String
  fromAccountId : Uuid
  amountCents : ℤ
  drawn : Drawn

/-- The goal, if the user may add to it. -/
def openGoal (userId goalId : Uuid) : Service Goal := do
  let goal ← query fun db => db.goals.lookup goalId
  match goal with
  | none => throw (.notFound "Goal not found")
  | some goal =>
    if goal.userId ≠ userId then throw (.notFound "Goal not found")
    else if goal.archivedAt.isSome then throw (.badRequest "Goal archived")
    else return goal

/-- The accounts of a contribution: the savings account it goes to, the account it comes from being
the user's. -/
def contributionAccounts (userId fromAccountId : Uuid) : Service Uuid := do
  let savings ← query fun db => db.findActive userId .savings
  match savings with
  | none => throw (.badRequest "No active savings account")
  | some savings => do
    let fromAccount ← query fun db => db.accounts.lookup fromAccountId
    if fromAccount.map Account.userId = some userId then return savings.1
    else throw (.forbidden "Not your account")

/-- `GoalsService.contribute`. -/
def contribute (env : Env) (me : ℕ) (c : ContributeCall) : Service (Goal × InitiateResult) := do
  let goal ← openGoal c.userId c.goalId
  let savingsId ← contributionAccounts c.userId c.fromAccountId
  let transfer ← initiate env me (putAside c.drawn c.userId c.idempotencyKey c.fromAccountId
    savingsId c.amountCents s!"Contribute to {goal.name}")
  let updated ← transaction me [] (incrementGoal c.goalId c.amountCents)
  return (updated, transfer)

theorem quiet_contributionAccounts (userId fromAccountId : Uuid) :
    Quiet (contributionAccounts userId fromAccountId) := by
  refine quiet_bind (quiet_query _) fun savings => ?_
  cases savings with
  | none => exact quiet_throw _
  | some savings =>
    refine quiet_bind (quiet_query _) fun fromAccount => ?_
    split
    · exact quiet_pure _
    · exact quiet_throw _

/-- Only one goal was added to. -/
def GoalRaised (id : Uuid) (cents : ℤ) (db db' : Db) : Prop :=
  ∃ G, db' = { db with goals := G } ∧ Table.Updated id
    (fun goal => { goal with currentCents := goal.currentCents + cents }) db.goals G

theorem incrementGoal_ok {id : Uuid} {cents : ℤ} {db : Db} {r : Goal × Db}
    (h : incrementGoal id cents db = .ok r) : GoalRaised id cents db r.2 := by
  unfold incrementGoal at h
  split at h
  · cases h
  · rename_i goal hgoal
    cases h
    exact ⟨_, rfl, goal, hgoal, rfl⟩

/-- The update goes through on a goal that is there. -/
theorem incrementGoal_goes {id : Uuid} {db : Db} {goal : Goal}
    (hgoal : db.goals.lookup id = some goal) (cents : ℤ) :
    ∃ r, incrementGoal id cents db = .ok r ∧ GoalRaised id cents db r.2 := by
  have hr : ∃ r, incrementGoal id cents db = .ok r := by
    unfold incrementGoal
    rw [hgoal]
    exact ⟨_, rfl⟩
  obtain ⟨r, hr⟩ := hr
  exact ⟨r, hr, incrementGoal_ok hr⟩

/-! ## What is in the goals -/

/-- What the goals of a user say is saved. -/
def savedCents (db : Db) (userId : Uuid) : ℤ :=
  db.goals.total fun goal => if goal.userId = userId then goal.currentCents else 0

theorem GoalRaised.savedCents {id : Uuid} {cents : ℤ} {db db' : Db} {goal : Goal}
    (h : GoalRaised id cents db db') (hgoal : db.goals.lookup id = some goal) (u : Uuid) :
    savedCents db' u = savedCents db u + if goal.userId = u then cents else 0 := by
  obtain ⟨G, rfl, hG⟩ := h
  unfold Goals.savedCents
  rw [(hG.replaced hgoal).total]
  simp only
  split <;> omega

/-- The goals that are there stay the user's. -/
theorem GoalRaised.owner {id g : Uuid} {cents : ℤ} {db db' : Db} {goal : Goal}
    (h : GoalRaised id cents db db') (hgoal : db.goals.lookup g = some goal) :
    ∃ goal', db'.goals.lookup g = some goal' ∧ goal'.userId = goal.userId := by
  obtain ⟨G, rfl, hG⟩ := h
  rw [hG.lookup]
  split
  · rw [hgoal]
    exact ⟨_, rfl, rfl⟩
  · exact ⟨goal, hgoal, rfl⟩

end BankDemo.Goals
