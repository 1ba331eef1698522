import BankDemo.Autosave.Splits
import BankDemo.Foundations.UuidText

/-!
# Goals and the settings of autosave

What customers set: their goals (`GoalsService` but for `contribute`) and the configuration of their
savings (`AutosaveService.upsert`). A goal is archived, but never deleted by its user. A
configuration names the goals that an amount is split over and the account that it comes from.

The tables are those of the two services. Other services add to the goals and write the accounts,
and the deletion of a user takes goals and configuration along.
-/

namespace BankDemo.Settings

open Autosave UuidText

/-! ## Tables -/

/-- A goal with all its columns. -/
structure GoalRow extends Goal where
  emoji : String
  targetCents : Option ℤ
  targetDate : Option Instant
  contributePerWeek : Option ℤ
  isDefault : Bool
  createdAt : Instant
  deriving DecidableEq

/-- A configuration with its day. -/
structure ConfigRow extends AutosaveConfig where
  weeklyDay : Option ℤ
  deriving DecidableEq

structure State where
  users : List Uuid
  accounts : Table Uuid Account
  goals : Table Uuid GoalRow
  autosaveConfigs : Table Uuid ConfigRow

/-- A request handler over the tables. -/
abbrev Handler (α : Type) := Prog State Error α

/-- A query. -/
def query {α : Type} (f : State → α) : Handler α := .read f

/-- A statement. -/
def statement {α : Type} (body : State → Except Error (α × State)) : Handler α :=
  .attempt (fun _ => true) body

/-! ## Statements -/

/-- `goal.create`, for a user that there is. -/
def createGoal (id : Uuid) (row : GoalRow) (s : State) : Except Error ((Uuid × GoalRow) × State) :=
  if (s.goals.lookup id).isSome then .error .uniqueViolation
  else if row.userId ∈ s.users then .ok ((id, row), { s with goals := s.goals.insert id row })
  else .error .foreignKey

/-- `goal.update`. -/
def updateGoal (id : Uuid) (f : GoalRow → GoalRow) (s : State) :
    Except Error ((Uuid × GoalRow) × State) :=
  match s.goals.lookup id with
  | none => .error .recordNotFound
  | some row => .ok ((id, f row), { s with goals := s.goals.insert id (f row) })

/-- `goal.updateMany`: the goals of the user, but for `keep`, are no default. -/
def State.clearDefaults (userId : Uuid) (keep : Option Uuid) (s : State) : State :=
  { s with
    goals := s.goals.updateMany
      (fun id row => row.userId = userId && row.isDefault && decide (some id ≠ keep))
      fun row => { row with isDefault := false } }

/-- `autosaveConfig.upsert`, for a user that there is. -/
def upsertConfig (userId : Uuid) (update : ConfigRow → ConfigRow) (create : ConfigRow) (s : State) :
    Except Error (ConfigRow × State) :=
  if userId ∈ s.users then
    let row := ((s.autosaveConfigs.lookup userId).map update).getD create
    .ok (row, { s with autosaveConfigs := s.autosaveConfigs.insert userId row })
  else .error .foreignKey

/-! ## `GoalsService` -/

structure CreateGoalDto where
  emoji : String
  name : String
  targetCents : Option ℤ
  targetDate : Option Instant
  contributePerWeek : Option ℤ
  isDefault : Option Bool
  deriving DecidableEq

structure UpdateGoalDto where
  emoji : Option String
  name : Option String
  targetCents : Option ℤ
  targetDate : Option Instant
  contributePerWeek : Option ℤ
  isDefault : Option Bool
  deriving DecidableEq

/-- The row that `create` writes. -/
def newGoal (now : Instant) (userId : Uuid) (dto : CreateGoalDto) : GoalRow where
  userId
  emoji := dto.emoji
  name := dto.name
  targetCents := dto.targetCents
  currentCents := 0
  targetDate := dto.targetDate
  contributePerWeek := dto.contributePerWeek
  isDefault := dto.isDefault.getD false
  archivedAt := none
  createdAt := now

/-- Other goals of the user are no default any more, if this one is to be. -/
def clearIf (isDefault : Option Bool) (userId : Uuid) (keep : Option Uuid) : Handler Unit :=
  if isDefault = some true then Prog.modify (fun _ => true) (State.clearDefaults userId keep)
  else return ()

def create (now : Instant) (id userId : Uuid) (dto : CreateGoalDto) : Handler (Uuid × GoalRow) := do
  clearIf dto.isDefault userId none
  statement (createGoal id (newGoal now userId dto))

/-- The goal, if it is the user's. -/
def ownGoal (userId id : Uuid) : Handler Unit := do
  match ← query fun s => s.goals.lookup id with
  | none => throw (.notFound "Goal not found")
  | some goal => if goal.userId ≠ userId then throw (.notFound "Goal not found") else return ()

/-- What `update` makes of the row: a field that is not given stays. -/
def UpdateGoalDto.apply (dto : UpdateGoalDto) (row : GoalRow) : GoalRow :=
  { row with
    emoji := dto.emoji.getD row.emoji
    name := dto.name.getD row.name
    targetCents := dto.targetCents <|> row.targetCents
    targetDate := dto.targetDate <|> row.targetDate
    contributePerWeek := dto.contributePerWeek <|> row.contributePerWeek
    isDefault := dto.isDefault.getD row.isDefault }

def update (userId id : Uuid) (dto : UpdateGoalDto) : Handler (Uuid × GoalRow) := do
  ownGoal userId id
  clearIf dto.isDefault userId (some id)
  statement (updateGoal id dto.apply)

def archive (now : Instant) (userId id : Uuid) : Handler (Uuid × GoalRow) := do
  ownGoal userId id
  statement (updateGoal id fun row => { row with archivedAt := some now })

/-! ## `AutosaveService` -/

structure UpdateAutosaveDto where
  enabled : Option Bool
  roundUpEnabled : Option Bool
  roundUpSourceAccountId : Option Uuid
  splits : Option (List GoalSplit)
  weeklyContributionCents : Option ℤ
  weeklyDay : Option ℤ
  deriving DecidableEq

/-- There are at most ten splits, each a whole number from 0 to 100. -/
def UpdateAutosaveDto.Valid (dto : UpdateAutosaveDto) : Prop :=
  ∀ splits ∈ dto.splits, splits.length ≤ 10 ∧ ∀ split ∈ splits, 0 ≤ split.percent ∧ split.percent ≤ 100

instance (dto : UpdateAutosaveDto) : Decidable dto.Valid :=
  inferInstanceAs (Decidable (∀ splits ∈ dto.splits, _ ∧ ∀ split ∈ splits, _))

/-- `goal.findMany`: which of the goals are the user's. -/
def State.ownedGoals (s : State) (userId : Uuid) (ids : List Uuid) : List Uuid :=
  (s.goals.entries.filter fun e => e.2.userId = userId && ids.contains e.1).map Sigma.fst

/-- The splits that are to be stored, if all are over goals of the user. -/
def checkSplits (userId : Uuid) (splits : Option (List GoalSplit)) :
    Handler (Option (List GoalSplit)) :=
  match splits with
  | none => return none
  | some splits => do
    let owned ← query fun s => s.ownedGoals userId (splits.map GoalSplit.goalId)
    match splits.find? fun split => !owned.contains split.goalId with
    | some split => throw (.badRequest ("Goal not found: " ++ uuidText split.goalId))
    | none => return some (normalizeSplitsDouble splits)

/-- The source must be an account of the user. -/
def checkSource (userId : Uuid) (source : Option Uuid) : Handler Unit :=
  match source with
  | none => return ()
  | some id => do
    let acct ← query fun s => s.accounts.lookup id
    if acct.map Account.userId = some userId then return ()
    else throw (.badRequest "Round-up source must be your account")

/-- What `upsert` makes of a row: a field that is not given stays. -/
def UpdateAutosaveDto.apply (dto : UpdateAutosaveDto) (splits : Option (List GoalSplit))
    (row : ConfigRow) : ConfigRow :=
  { row with
    enabled := dto.enabled.getD row.enabled
    roundUpEnabled := dto.roundUpEnabled.getD row.roundUpEnabled
    roundUpSourceAccountId := dto.roundUpSourceAccountId <|> row.roundUpSourceAccountId
    splits := splits.getD row.splits
    weeklyContributionCents := dto.weeklyContributionCents <|> row.weeklyContributionCents
    weeklyDay := dto.weeklyDay <|> row.weeklyDay }

/-- The row of a user without one. -/
def UpdateAutosaveDto.new (dto : UpdateAutosaveDto) (splits : Option (List GoalSplit)) : ConfigRow where
  enabled := dto.enabled.getD false
  roundUpEnabled := dto.roundUpEnabled.getD false
  roundUpSourceAccountId := dto.roundUpSourceAccountId
  splits := splits.getD []
  weeklyContributionCents := dto.weeklyContributionCents
  weeklyDay := dto.weeklyDay

def upsert (userId : Uuid) (dto : UpdateAutosaveDto) : Handler ConfigRow := do
  let normalizedSplits ← checkSplits userId dto.splits
  checkSource userId dto.roundUpSourceAccountId
  statement (upsertConfig userId (dto.apply normalizedSplits) (dto.new normalizedSplits))

/-- `autosaveConfig.findMany` of the weekly worker: the configurations due on a day. -/
def State.due (s : State) (today : ℤ) : List (Uuid × ConfigRow) :=
  (s.autosaveConfigs.entries.map fun e => (e.1, e.2)).filter fun e =>
    e.2.enabled && decide (e.2.weeklyDay = some today)

/-! ## Calls -/

/-- The endpoints, what the weekly worker reads, an amount that another service adds to a goal, what
other services make of an account, and the deletion of a user. -/
inductive Call
  | create (now : Instant) (id userId : Uuid) (dto : CreateGoalDto)
  | update (userId id : Uuid) (dto : UpdateGoalDto)
  | archive (now : Instant) (userId id : Uuid)
  | upsert (userId : Uuid) (dto : UpdateAutosaveDto)
  | due (today : ℤ)
  | increment (id : Uuid) (cents : ℤ)
  | account (id : Uuid) (row : Option Account)
  | deleteUser (userId : Uuid)
  deriving DecidableEq

/-- The request is as its checks demand. -/
def Call.Valid : Call → Prop
  | .upsert _ dto => dto.Valid
  | _ => True

inductive Answer
  | goal (id : Uuid) (row : GoalRow)
  | config (row : ConfigRow)
  | due (rows : List (Uuid × ConfigRow))
  | done
  deriving DecidableEq

/-- An account is written, or is no more. -/
def State.putAccount (id : Uuid) (row : Option Account) (s : State) : State :=
  match row with
  | some row => { s with accounts := s.accounts.insert id row }
  | none => { s with accounts := s.accounts.erase id }

/-- The user is gone, with goals and configuration. -/
def State.deleteUser (userId : Uuid) (s : State) : State :=
  { s with
    users := s.users.filter (· ≠ userId)
    goals := s.goals.deleteMany fun _ row => row.userId = userId
    autosaveConfigs := s.autosaveConfigs.erase userId }

def handle : Call → Handler Answer
  | .create now id userId dto => do
    let (id, row) ← create now id userId dto
    return .goal id row
  | .update userId id dto => do
    let (id, row) ← update userId id dto
    return .goal id row
  | .archive now userId id => do
    let (id, row) ← archive now userId id
    return .goal id row
  | .upsert userId dto => return .config (← upsert userId dto)
  | .due today => return .due (← query fun s => s.due today)
  | .increment id cents => do
    let (id, row) ← statement (updateGoal id fun row =>
      { row with currentCents := row.currentCents + cents })
    return .goal id row
  | .account id row => do
    Prog.modify (fun _ => true) (State.putAccount id row)
    return .done
  | .deleteUser userId => do
    Prog.modify (fun _ => true) (State.deleteUser userId)
    return .done

end BankDemo.Settings
