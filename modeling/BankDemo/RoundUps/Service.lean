import BankDemo.Autosave.Service
import BankDemo.System.Calls
import BankDemo.System.Initiate

/-!
# Round-ups

`RoundUpsService.onSettled` records the round-up of a card purchase as a row that is to be applied;
`RoundUpsService.applyDaily` sums these rows for each user, moves each sum to savings under one key
a day, adds it to the user's goals and marks the user's rows applied. The sums are read at the
beginning and all rows that are there in the end are marked.

Among other calls of its kind, a step of theirs is a `RoundUpChange`, in which the amount of a
transfer is the sum of the rows that were to be applied when the sweep began (`roundUp_begins`).
-/

namespace BankDemo.RoundUps

open Ledger Transfers Goals Autosave

/-! ## The service -/

/-- `roundUpCents`. -/
def roundUpCents (amountAbs : ℤ) : ℤ :=
  let remainder := amountAbs.tmod 100
  if remainder = 0 then 0 else 100 - remainder

/-- An event `transaction.settled`, and the id that its row would get. -/
structure SettledCall where
  userId : Uuid
  transactionId : Uuid
  rowId : Uuid

/-- `roundUpLedger.create`. -/
def createRoundUp (id : Uuid) (row : RoundUp) : Tx Unit := fun db =>
  if (db.roundUps.lookup id).isSome then .error .uniqueViolation
  else .ok ((), { db with roundUps := db.roundUps.insert id row })

/-- Round-ups are switched on. -/
def roundsUp (config : Option AutosaveConfig) : Bool :=
  config.any fun config => config.enabled && config.roundUpEnabled

/-- `RoundUpsService.onSettled`, its errors caught. -/
def onSettled (me : ℕ) (c : SettledCall) : Service Unit :=
  tryCatch (do
    let tx ← query fun db => db.transactions.lookup c.transactionId
    match tx with
    | none => pure ()
    | some tx =>
      if tx.kind ≠ .cardPurchase ∨ 0 ≤ tx.amountCents then pure ()
      else do
        let config ← query fun db => db.autosaveConfigs.lookup c.userId
        if !roundsUp config || roundUpCents (-tx.amountCents) = 0 then pure ()
        else transaction me [] (createRoundUp c.rowId
          ⟨c.userId, c.transactionId, roundUpCents (-tx.amountCents), none⟩))
    fun _ => pure ()

/-- What a sweep draws for each user: what its `initiate` takes, and the time of the mark. -/
structure SweepCall where
  drawn : Uuid → Drawn
  appliedAt : Uuid → Instant

/-- The key of the sweep of a user. -/
def SweepCall.key (c : SweepCall) (userId : Uuid) : String :=
  s!"roundup:{userId}:{JsDate.isoDay (c.drawn userId).now}"

/-- The row is the user's and is to be applied. -/
def isPending (userId : Uuid) (row : RoundUp) : Bool :=
  row.userId = userId ∧ row.appliedAt = none

/-- The sum of the rows of a user that are to be applied. -/
def pendingSum (db : Db) (userId : Uuid) : ℤ :=
  db.roundUps.total fun row => if isPending userId row then row.amountCents else 0

/-- `roundUpLedger.groupBy`: the users with rows to apply, and the sums. -/
def pendingGroups (db : Db) : List (Uuid × ℤ) :=
  ((db.roundUps.entries.filter fun e => e.2.appliedAt = none).map fun e => e.2.userId).dedup.map
    fun userId => (userId, pendingSum db userId)

/-- The rows, with those of a user that are to be applied marked. -/
def applied (userId : Uuid) (now : Instant) (rows : Table Uuid RoundUp) : Table Uuid RoundUp :=
  rows.updateMany (fun _ => isPending userId) fun row => { row with appliedAt := some now }

/-- `roundUpLedger.updateMany`. -/
def markApplied (userId : Uuid) (now : Instant) : Tx Unit := fun db =>
  .ok ((), { db with roundUps := applied userId now db.roundUps })

/-- The transfer of a sweep. -/
def sweepTransfer (c : SweepCall) (userId source savings : Uuid) (total : ℤ) : InitiateCall :=
  putAside (c.drawn userId) userId (c.key userId) source savings total "Round-up sweep"

/-- `RoundUpsService.applyForUser`. -/
def applyForUser (env : Env) (me : ℕ) (c : SweepCall) (userId : Uuid) (total : ℤ) :
    Service Bool := do
  let config ← query fun db => db.autosaveConfigs.lookup userId
  match config with
  | none => return false
  | some config =>
    if !config.enabled || !config.roundUpEnabled then return false
    else do
      let route ← savingsRoute userId config
      match route with
      | none => return false
      | some (source, savings) => do
        let moved ← tryInitiate env me (sweepTransfer c userId source savings total)
        if !moved then return false
        else do
          if config.splits = [] then pure ()
          else addToGoals me (allocateCents total config.splits)
          transaction me [] (markApplied userId (c.appliedAt userId))
          return true

/-- The loop of `applyDaily`, with the numbers of users and cents so far. -/
def applyGroups (env : Env) (me : ℕ) (c : SweepCall) : List (Uuid × ℤ) → ℕ × ℤ → Service (ℕ × ℤ)
  | [], done => return done
  | (userId, sum) :: groups, done =>
    if sum ≤ 0 then applyGroups env me c groups done
    else do
      let ok ← applyForUser env me c userId sum
      applyGroups env me c groups (if ok then (done.1 + 1, done.2 + sum) else done)

/-- `RoundUpsService.applyDaily`. -/
def applyDaily (env : Env) (me : ℕ) (c : SweepCall) : Service (ℕ × ℤ) := do
  let groups ← query pendingGroups
  applyGroups env me c groups (0, 0)

/-- The calls on round-ups. -/
inductive RoundUpCall
  | settled (c : SettledCall)
  | daily (c : SweepCall)

/-- The program of a call, for thread `me`. -/
def roundUpProgram (env : Env) (me : ℕ) : RoundUpCall → Service Answer
  | .settled c => silently (onSettled me c)
  | .daily c => silently (applyDaily env me c)

theorem sum_of_mem_pendingGroups {db : Db} {g : Uuid × ℤ} (h : g ∈ pendingGroups db) :
    g.2 = pendingSum db g.1 := by
  obtain ⟨u, -, rfl⟩ := List.mem_map.1 h
  rfl

/-! ## What the actions do -/

/-- What an action of a call can do to the database, for a thread that began in `w₁`. -/
inductive RoundUpChange (env : Env) (w₁ : World) (db db' : Db) : RoundUpCall → Prop
  | quiet {c : RoundUpCall} (hdb : db' = db) : RoundUpChange env w₁ db db' c
  | recorded {c : SettledCall} {row : RoundUp} {R : Table Uuid RoundUp}
      (hrow : row.appliedAt = none) (hdb : db' = { db with roundUps := R })
      (hcreated : Table.Created c.rowId row db.roundUps R) :
      RoundUpChange env w₁ db db' (.settled c)
  | debited {c : SweepCall} {u source savings : Uuid} {t : Transfer}
      (hadmitted : Admitted env (sweepTransfer c u source savings (pendingSum w₁.db u)) t)
      (hinitiated : Initiated (sweepTransfer c u source savings (pendingSum w₁.db u)) t db db') :
      RoundUpChange env w₁ db db' (.daily c)
  | raised {c : SweepCall} {id : Uuid} {cents : ℤ} (hraised : GoalRaised id cents db db') :
      RoundUpChange env w₁ db db' (.daily c)
  | marked {c : SweepCall} {u : Uuid}
      (hdb : db' = { db with roundUps := applied u (c.appliedAt u) db.roundUps }) :
      RoundUpChange env w₁ db db' (.daily c)

/-- What an action of thread `i` guarantees, when it began in `w₁`. -/
def roundUpGuar (env : Env) (i : ℕ) (c : RoundUpCall) (w₁ : World) (h : List World) (w' : World) :
    Prop :=
  ∀ w past, h = w :: past → RoundUpChange env w₁ w.db w'.db c ∧ ∀ j, j ≠ i → Keeps j w w'

/-- The discipline of the calls on round-ups. -/
def roundUps (env : Env) : Discipline World Error Answer RoundUpCall where
  rely := rely
  guar := fun i c h w' => ∃ w₁, roundUpGuar env i c w₁ h w'
  post := fun _ _ _ => True
  rely_trans := rely_trans
  rely_of_guar := by
    rintro i j c s past s' hij ⟨w₁, hg⟩
    exact rely_own ((hg _ _ rfl).2 _ (Ne.symm hij))
  post_mono := fun _ => trivial

section Follows

variable {env : Env} {i : ℕ} {c : RoundUpCall} {w₁ : World} {h : List World} {α : Type}

instance : Idles i (roundUpGuar env i c w₁) where
  idle := by
    intro w w' past hdb hkeeps x px hx
    cases hx
    exact ⟨.quiet hdb, hkeeps⟩

/-- A statement that leaves the accounts, and that a change allows. -/
theorem statement_follows {body : Tx α}
    (hbody : ∀ db r, body db = .ok r → r.2.accounts = db.accounts ∧
      RoundUpChange env w₁ db r.2 c) :
    (transaction i [] body).Follows (rely i) (roundUpGuar env i c w₁) (fun _ _ => True) h := by
  refine follows_commit (fun w past a db' _ hb => ?_) fun _ _ _ => trivial
  obtain ⟨haccounts, hchange⟩ := hbody _ _ hb
  refine ⟨fun x _ => ?_, fun hkeeps x px hx => ?_, trivial⟩
  · simp only [Db.balance] at haccounts ⊢
    rw [haccounts]
  · cases hx
    exact ⟨hchange, hkeeps⟩

theorem createRoundUp_ok {id : Uuid} {row : RoundUp} {db : Db} {r : Unit × Db}
    (h : createRoundUp id row db = .ok r) :
    ∃ R, r.2 = { db with roundUps := R } ∧ Table.Created id row db.roundUps R := by
  unfold createRoundUp at h
  split at h
  · cases h
  · rename_i hid
    cases h
    exact ⟨_, rfl, by simpa using hid, rfl⟩

theorem onSettled_follows {sc : SettledCall} :
    (onSettled i sc).Follows (rely i) (roundUpGuar env i (.settled sc) w₁) (fun _ _ => True) h := by
  -- an error is caught, and nothing is done about it
  refine Prog.Follows.catch (follows_query fun w past _ => ?_) fun _ _ => Prog.follows_pure trivial
  cases w.db.transactions.lookup sc.transactionId with
  | none => exact Prog.follows_pure trivial
  | some tx =>
    simp only
    split
    · exact Prog.follows_pure trivial
    · refine follows_query fun w' past' _ => ?_
      split
      · exact Prog.follows_pure trivial
      · refine statement_follows fun db r hr => ?_
        obtain ⟨R, hdb, hcreated⟩ := createRoundUp_ok hr
        exact ⟨by rw [hdb], .recorded rfl hdb hcreated⟩

theorem addToGoals_follows {sc : SweepCall} (shares : List Allocation) (h : List World) :
    (addToGoals i shares).Follows (rely i) (roundUpGuar env i (.daily sc) w₁) (fun _ _ => True)
      h := by
  induction shares generalizing h with
  | nil => exact Prog.follows_pure trivial
  | cons a shares ih =>
    refine Prog.Follows.seq (statement_follows fun db r hr => ?_) fun _ h' => ih h'
    have hraised := incrementGoal_ok hr
    obtain ⟨G, hdb, -⟩ := id hraised
    exact ⟨by rw [hdb], .raised hraised⟩

theorem tryInitiate_follows {sc : SweepCall} {u source savings : Uuid} {total : ℤ}
    (htotal : total = pendingSum w₁.db u) :
    (tryInitiate env i (sweepTransfer sc u source savings total)).Follows (rely i)
      (roundUpGuar env i (.daily sc) w₁) (fun _ _ => True) h := by
  subst htotal
  have hcovers : CoversDebit env i (sweepTransfer sc u source savings (pendingSum w₁.db u))
      (roundUpGuar env i (.daily sc) w₁) := by
    intro w past db' t hadmitted _ _ _ hinitiated hkeeps x px hx
    cases hx
    exact ⟨.debited hadmitted hinitiated, hkeeps⟩
  have hinit := (initiate_resolves hcovers h).imp fun _ _ _ => trivial
  exact (hinit.seq fun _ _ => Prog.follows_pure trivial).catch fun _ _ => Prog.follows_pure trivial

theorem applyForUser_follows {sc : SweepCall} {u : Uuid} {total : ℤ}
    (htotal : total = pendingSum w₁.db u) :
    (applyForUser env i sc u total).Follows (rely i) (roundUpGuar env i (.daily sc) w₁)
      (fun _ _ => True) h := by
  have hmark : ∀ h', (do
      transaction i [] (markApplied u (sc.appliedAt u))
      return true : Service Bool).Follows (rely i) (roundUpGuar env i (.daily sc) w₁)
        (fun _ _ => True) h' := by
    intro h'
    refine Prog.Follows.seq (statement_follows fun db r hr => ?_)
      fun _ _ => Prog.follows_pure trivial
    cases hr
    exact ⟨rfl, .marked rfl⟩
  refine follows_query fun w past _ => ?_
  cases w.db.autosaveConfigs.lookup u with
  | none => exact Prog.follows_pure trivial
  | some config =>
    simp only
    split
    · exact Prog.follows_pure trivial
    · refine Quiet.follows_bind (quiet_savingsRoute u config) (fun route h₁ _ => ?_)
        fun _ _ _ => trivial
      cases route with
      | none => exact Prog.follows_pure trivial
      | some route =>
        refine (tryInitiate_follows htotal).seq fun moved h₂ => ?_
        split
        · exact Prog.follows_pure trivial
        · split
          · exact hmark h₂
          · exact (addToGoals_follows _ h₂).seq fun _ h₃ => hmark h₃

theorem applyGroups_follows {sc : SweepCall} (groups : List (Uuid × ℤ)) (done : ℕ × ℤ)
    (hgroups : ∀ g ∈ groups, g.2 = pendingSum w₁.db g.1) (h : List World) :
    (applyGroups env i sc groups done).Follows (rely i) (roundUpGuar env i (.daily sc) w₁)
      (fun _ _ => True) h := by
  induction groups generalizing done h with
  | nil => exact Prog.follows_pure trivial
  | cons g groups ih =>
    have hrest : ∀ g ∈ groups, g.2 = pendingSum w₁.db g.1 :=
      fun g' hg' => hgroups g' (List.mem_cons_of_mem _ hg')
    obtain ⟨u, sum⟩ := g
    unfold applyGroups
    split
    · exact ih done hrest h
    · have hsum := hgroups (u, sum) List.mem_cons_self
      exact (applyForUser_follows hsum).seq fun _ h' => ih _ hrest h'

/-- **Every call on round-ups keeps to its guarantee**, in whatever company: what a sweep moves are
the sums it found when it began. -/
theorem roundUp_begins (env : Env) (i : ℕ) (c : RoundUpCall) (h : List World) :
    (roundUpProgram env i c).Begins (rely i) (roundUpGuar env i c) (fun _ _ => True) h := by
  cases c with
  | settled sc => exact Prog.Begins.map (Prog.Follows.begins (fun _ => onSettled_follows)
      fun _ => trivial)
  | daily sc =>
    refine Prog.Begins.map (Prog.begins_read fun w past _ => ⟨idle_of_eq (i := i) rfl rfl, ?_⟩)
    exact applyGroups_follows _ _ (fun g hg => sum_of_mem_pendingGroups hg) _

end Follows

/-! ## A customer who saves -/

/-- Ann has a savings account, two goals that share what is put aside, six round-ups of 0.90 to
apply, and a card purchase of 4.30. -/
def sampleSaver : World :=
  { sampleWorld with db := { sampleDb with
    accounts := sampleDb.accounts.insert 11 ⟨1, .savings, "Savings", 0, .active⟩
    transactions := (∅ : Table Uuid Transaction).insert 900
      ⟨10, .cardPurchase, .posted, -430, "Coffee", .dining, none, 0, some 0, none⟩
    goals := ((∅ : Table Uuid Goal).insert 80 ⟨1, "Trip", 0, none⟩).insert 81 ⟨1, "Car", 0, none⟩
    autosaveConfigs := (∅ : Table Uuid AutosaveConfig).insert 1
      ⟨true, true, none, [⟨80, 50⟩, ⟨81, 50⟩], some 1001⟩
    roundUps := (List.range' 90 6).foldl (fun R id => R.insert id ⟨1, 800 + id, 90, none⟩) ∅ } }

/-- What a call draws that makes transfer `id` at the epoch. -/
def sampleDrawn (id : Uuid) : Drawn :=
  ⟨fun _ _ => .error (.badRequest "no rate"), id, id + 1, 0, true⟩

/-- A sweep that makes transfer `id` at the epoch. -/
def sampleSweep (id : Uuid) : SweepCall := ⟨fun _ => sampleDrawn id, fun _ => 0⟩

end BankDemo.RoundUps
