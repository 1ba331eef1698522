import BankDemo.Foundations.JsDate
import BankDemo.Goals.Service

/-!
# Autosave

`allocateCents` splits an amount over goals by percentages, with what the roundings leave going to
the goal of the largest percentage: the shares add up to the amount (`allocateCents_sum`).
`AutosaveService.applyWeeklyContribution` moves a weekly amount to savings, under one key a week,
and then adds the shares to the goals one by one.
-/

namespace BankDemo.Autosave

open Transfers Goals

/-! ## Shares -/

/-- A share of an amount. -/
structure Allocation where
  goalId : Uuid
  cents : ℤ
  deriving DecidableEq

/-- The percentage at a place. -/
def percentAt (splits : List GoalSplit) (i : ℕ) : ℤ := (splits[i]?.map GoalSplit.percent).getD 0

/-- The place of the first of the largest percentages. -/
def largestIdx (splits : List GoalSplit) : ℕ :=
  (List.range' 1 (splits.length - 1)).foldl
    (fun largest i => if percentAt splits i > percentAt splits largest then i else largest) 0

/-- The shares as they are rounded. -/
def roundedShares (amountCents : ℤ) (splits : List GoalSplit) : List Allocation :=
  splits.map fun s => ⟨s.goalId, (amountCents * s.percent).tdiv 100⟩

/-- The sum of shares. -/
def shareSum (shares : List Allocation) : ℤ := (shares.map Allocation.cents).sum

/-- `allocateCents`. -/
def allocateCents (amountCents : ℤ) (splits : List GoalSplit) : List Allocation :=
  let allocations := roundedShares amountCents splits
  let leftover := amountCents - shareSum allocations
  if splits = [] then []
  else if leftover = 0 then allocations
  else allocations.modify (largestIdx splits) fun a => { a with cents := a.cents + leftover }

theorem largestIdx_lt {splits : List GoalSplit} (h : splits ≠ []) :
    largestIdx splits < splits.length := by
  have hpos : 0 < splits.length := List.length_pos_iff.2 h
  -- every candidate is a place of the list
  have hfold : ∀ (l : List ℕ) (n : ℕ), (∀ i ∈ l, i < splits.length) → n < splits.length →
      l.foldl (fun largest i => if percentAt splits i > percentAt splits largest then i
        else largest) n < splits.length := by
    intro l
    induction l with
    | nil => exact fun n _ hn => hn
    | cons i l ih =>
      intro n hl hn
      rw [List.foldl_cons]
      apply ih _ fun j hj => hl j (List.mem_cons_of_mem _ hj)
      split
      · exact hl i List.mem_cons_self
      · exact hn
  apply hfold _ 0 _ hpos
  intro i hi
  have := List.mem_range'_1.1 hi
  omega

theorem shareSum_modify {shares : List Allocation} {i : ℕ} (hi : i < shares.length) (d : ℤ) :
    shareSum (shares.modify i fun a => { a with cents := a.cents + d }) = shareSum shares + d := by
  induction shares generalizing i with
  | nil => simp at hi
  | cons a shares ih =>
    cases i with
    | zero =>
      simp only [shareSum, List.modify_zero_cons, List.map_cons, List.sum_cons]
      omega
    | succ i =>
      have hrest := ih (Nat.lt_of_succ_lt_succ hi)
      simp only [shareSum] at hrest
      simp only [shareSum, List.modify_succ_cons, List.map_cons, List.sum_cons, hrest]
      omega

/-- The shares add up to the amount. -/
theorem allocateCents_sum (amountCents : ℤ) {splits : List GoalSplit} (h : splits ≠ []) :
    shareSum (allocateCents amountCents splits) = amountCents := by
  unfold allocateCents
  simp only [if_neg h]
  split
  · omega
  · rw [shareSum_modify]
    · omega
    · rw [roundedShares, List.length_map]
      exact largestIdx_lt h

/-- The shares are those of the goals of the splits. -/
theorem goalId_of_mem_allocateCents {amountCents : ℤ} {splits : List GoalSplit} {a : Allocation}
    (h : a ∈ allocateCents amountCents splits) : ∃ s ∈ splits, s.goalId = a.goalId := by
  have hrounded : ∀ {b : Allocation}, b ∈ roundedShares amountCents splits →
      ∃ s ∈ splits, s.goalId = b.goalId := by
    intro b hb
    obtain ⟨s, hs, rfl⟩ := List.mem_map.1 hb
    exact ⟨s, hs, rfl⟩
  unfold allocateCents at h
  simp only at h
  split at h
  · cases h
  · split at h
    · exact hrounded h
    · obtain ⟨i, hi⟩ := List.mem_iff_getElem?.1 h
      rw [List.getElem?_modify] at hi
      obtain ⟨b, hb, hba⟩ := Option.map_eq_some_iff.1 hi
      obtain ⟨s, hs, hsb⟩ := hrounded (List.mem_of_getElem? hb)
      refine ⟨s, hs, hsb.trans ?_⟩
      rw [← hba]
      split <;> rfl

/-! ## The service -/

/-- Add shares to their goals, one statement each. -/
def addToGoals (me : ℕ) : List Allocation → Service Unit
  | [] => pure ()
  | a :: rest => do
    let _ ← transaction me [] (incrementGoal a.goalId a.cents)
    addToGoals me rest

/-- The account that savings are taken from. -/
def sourceId (userId : Uuid) (config : AutosaveConfig) : Service (Option Uuid) :=
  match config.roundUpSourceAccountId with
  | some id => return some id
  | none => do
    let checking ← query fun db => db.findActive userId .checking
    return checking.map Prod.fst

/-- The accounts savings go from and to. -/
def savingsRoute (userId : Uuid) (config : AutosaveConfig) : Service (Option (Uuid × Uuid)) := do
  let source ← sourceId userId config
  match source with
  | none => return none
  | some source => do
    let savings ← query fun db => db.findActive userId .savings
    return savings.map fun account => (source, account.1)

/-- `initiate`, with its errors caught: whether it returned. -/
def tryInitiate (env : Env) (me : ℕ) (ic : InitiateCall) : Service Bool :=
  tryCatch (do
    let _ ← initiate env me ic
    return true) fun _ => return false

/-- `weekStamp`. -/
def weekStamp (t : Instant) : String :=
  let year := JsDate.getUTCFullYear t
  let onejan := JsDate.utcNewYear year
  let week := (t - onejan + (JsDate.getUTCDay onejan + 1) * JsDate.msPerDay).fdiv
    (7 * JsDate.msPerDay)
  s!"{year}-W{JsDate.pad 2 week}"

/-- A call of `applyWeeklyContribution`: the configuration, as it was read, and its user. -/
structure WeeklyCall where
  userId : Uuid
  config : AutosaveConfig
  drawn : Drawn

/-- The key of a weekly contribution. -/
def WeeklyCall.key (c : WeeklyCall) : String :=
  s!"autosave:weekly:{c.userId}:{weekStamp c.drawn.now}"

/-- `AutosaveService.applyWeeklyContribution`. -/
def applyWeeklyContribution (env : Env) (me : ℕ) (c : WeeklyCall) : Service Unit :=
  match c.config.weeklyContributionCents with
  | none => pure ()
  | some total =>
    if !c.config.enabled || total ≤ 0 || c.config.splits = [] then pure ()
    else do
      let route ← savingsRoute c.userId c.config
      match route with
      | none => pure ()
      | some (source, savings) => do
        let moved ← tryInitiate env me (putAside c.drawn c.userId c.key source savings total
          "Autosave weekly contribution")
        if moved then addToGoals me (allocateCents total c.config.splits) else pure ()

theorem quiet_sourceId (userId : Uuid) (config : AutosaveConfig) :
    Quiet (sourceId userId config) := by
  unfold sourceId
  split
  · exact quiet_pure _
  · exact quiet_bind (quiet_query _) fun _ => quiet_pure _

theorem quiet_savingsRoute (userId : Uuid) (config : AutosaveConfig) :
    Quiet (savingsRoute userId config) := by
  refine quiet_bind (quiet_sourceId userId config) fun source => ?_
  cases source with
  | none => exact quiet_pure _
  | some source => exact quiet_bind (quiet_query _) fun _ => quiet_pure _

end BankDemo.Autosave
