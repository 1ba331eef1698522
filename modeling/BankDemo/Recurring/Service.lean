import BankDemo.Foundations.JsDate
import BankDemo.Foundations.UuidText
import BankDemo.Goals.Service
import BankDemo.System.Changes

/-!
# Recurring transfers

`RecurringTransfersService.runDueNow` reads up to 100 due schedules, and for each of them makes an
internal transfer under a key of the occurrence, `recurring:<id>:<time>`, and then moves the
schedule on. The steps are separate and take no locks: scans may overlap, stop anywhere and be run
again, while owners change and cancel their schedules.

* `occurrenceKey_injective`: the keys tell occurrences apart.
-/

namespace BankDemo.Recurring

open Transfers Goals JsDate

/-! ## The service -/

inductive RecurringFrequency
  | weekly
  | biweekly
  | monthly
  deriving DecidableEq

/-- A schedule. -/
structure RecurringTransfer where
  userId : Uuid
  fromAccountId : Uuid
  toAccountId : Uuid
  amountCents : ℤ
  frequency : RecurringFrequency
  dayOf : ℤ
  active : Bool
  nextRunAt : Instant
  lastRunAt : Option Instant
  deriving DecidableEq

/-- `(dayOf - d.getUTCDay() + 7) % 7 || 7`: the days until the weekday comes again. -/
def daysUntil (d : Instant) (dayOf : ℤ) : ℤ :=
  let diff := (dayOf - getUTCDay d + 7).tmod 7
  if diff = 0 then 7 else diff

/-- `computeNextRunAt`. -/
def computeNextRunAt (d : Instant) (frequency : RecurringFrequency) (dayOf : ℤ) : Instant :=
  match frequency with
  | .weekly => setUTCHours (setUTCDate d (getUTCDate d + daysUntil d dayOf)) 9
  | .biweekly => setUTCHours (setUTCDate d (getUTCDate d + daysUntil d dayOf + 7)) 9
  | .monthly =>
    let d := setUTCMonth d (getUTCMonth d + 1)
    let lastDay := getUTCDate (utc (getUTCFullYear d) (getUTCMonth d + 1) 0)
    setUTCHours (setUTCDate d (min dayOf lastDay)) 9

/-- The bank and the schedules of its customers. -/
structure Schedules where
  world : World
  recurring : Table Uuid RecurringTransfer

/-- The bank among the schedules. -/
def worldPart : Prog.Part Schedules World where
  get := Schedules.world
  put w s := { s with world := w }
  get_put _ _ := rfl
  put_get _ := rfl
  put_put _ _ _ := rfl

/-- A call, as a program on the bank and the schedules. -/
abbrev RecurringService (α : Type) := Prog Schedules Error α

/-- A query. -/
def find {α : Type} (f : Schedules → α) : RecurringService α := Prog.read f

/-- A statement on the table of schedules. -/
def statement {α : Type}
    (body : Table Uuid RecurringTransfer → Except Error (α × Table Uuid RecurringTransfer)) :
    RecurringService α :=
  Prog.attempt (fun _ => true) fun s =>
    (body s.recurring).map fun r => (r.1, { s with recurring := r.2 })

/-- `recurringTransfer.create`. -/
def createRow (id : Uuid) (row : RecurringTransfer) (T : Table Uuid RecurringTransfer) :
    Except Error (RecurringTransfer × Table Uuid RecurringTransfer) :=
  if (T.lookup id).isSome then .error .uniqueViolation else .ok (row, T.insert id row)

/-- `recurringTransfer.update`. -/
def updateRow (id : Uuid) (f : RecurringTransfer → RecurringTransfer)
    (T : Table Uuid RecurringTransfer) :
    Except Error (RecurringTransfer × Table Uuid RecurringTransfer) :=
  match T.lookup id with
  | none => .error .recordNotFound
  | some row => .ok (f row, T.insert id (f row))

/-- `recurringTransfer.delete`. -/
def deleteRow (id : Uuid) (T : Table Uuid RecurringTransfer) :
    Except Error (Unit × Table Uuid RecurringTransfer) :=
  if (T.lookup id).isNone then .error .recordNotFound else .ok ((), T.erase id)

structure CreateRecurringDto where
  fromAccountId : Uuid
  toAccountId : Uuid
  amountCents : ℤ
  frequency : RecurringFrequency
  dayOf : ℤ

/-- A call of `create`, with the id that the row would get. -/
structure CreateCall where
  userId : Uuid
  dto : CreateRecurringDto
  now : Instant
  rowId : Uuid

/-- `RecurringTransfersService.create`. -/
def create (c : CreateCall) : RecurringService RecurringTransfer := do
  let fromAcct ← find fun s => s.world.db.accounts.lookup c.dto.fromAccountId
  let toAcct ← find fun s => s.world.db.accounts.lookup c.dto.toAccountId
  if fromAcct.map Account.userId ≠ some c.userId then throw (.forbidden "Not your source account")
  else if toAcct.map Account.userId ≠ some c.userId then
    throw (.forbidden "Not your destination account")
  else statement (createRow c.rowId {
    userId := c.userId
    fromAccountId := c.dto.fromAccountId
    toAccountId := c.dto.toAccountId
    amountCents := c.dto.amountCents
    frequency := c.dto.frequency
    dayOf := c.dto.dayOf
    active := true
    nextRunAt := computeNextRunAt c.now c.dto.frequency c.dto.dayOf
    lastRunAt := none })

structure UpdateRecurringDto where
  active : Option Bool
  amountCents : Option ℤ
  frequency : Option RecurringFrequency
  dayOf : Option ℤ

/-- The request asks for other days than the row has. -/
def scheduleChanged (dto : UpdateRecurringDto) (existing : RecurringTransfer) : Bool :=
  if dto.frequency.isSome ∧ dto.frequency ≠ some existing.frequency then true
  else dto.dayOf.isSome ∧ dto.dayOf ≠ some existing.dayOf

/-- The row with what the request sets, `existing` being what was read of it. -/
def edited (dto : UpdateRecurringDto) (now : Instant) (existing row : RecurringTransfer) :
    RecurringTransfer :=
  { row with
    active := dto.active.getD row.active
    amountCents := dto.amountCents.getD row.amountCents
    frequency := dto.frequency.getD row.frequency
    dayOf := dto.dayOf.getD row.dayOf
    nextRunAt := if scheduleChanged dto existing then computeNextRunAt now
      (dto.frequency.getD existing.frequency) (dto.dayOf.getD existing.dayOf) else row.nextRunAt }

/-- The schedule of the user under an id. -/
def findOwn (userId id : Uuid) : RecurringService RecurringTransfer := do
  let existing ← find fun s => s.recurring.lookup id
  match existing with
  | none => throw (.notFound "Recurring not found")
  | some existing =>
    if existing.userId ≠ userId then throw (.notFound "Recurring not found") else return existing

/-- A call of `update`. -/
structure UpdateCall where
  userId : Uuid
  id : Uuid
  dto : UpdateRecurringDto
  now : Instant

/-- `RecurringTransfersService.update`. -/
def update (c : UpdateCall) : RecurringService RecurringTransfer := do
  let existing ← findOwn c.userId c.id
  statement (updateRow c.id (edited c.dto c.now existing))

/-- `RecurringTransfersService.cancel`. -/
def cancel (userId id : Uuid) : RecurringService Unit := do
  let _ ← findOwn userId id
  statement (deleteRow id)

/-- `recurring:${id}:${nextRunAt}`. -/
def occurrenceKey (id : Uuid) (nextRunAt : Instant) : String :=
  s!"recurring:{UuidText.uuidText id}:{toISOString nextRunAt}"

/-- A scan: its time, what the transfer of each schedule draws, and the order in which the query,
which asks for none, finds rows. -/
structure ScanCall where
  now : Instant
  drawn : Uuid → Drawn
  order : List (Uuid × RecurringTransfer) → List (Uuid × RecurringTransfer)
  order_perm : ∀ rows, (order rows).Perm rows

/-- The schedules that the scan reads. -/
def ScanCall.due (c : ScanCall) (T : Table Uuid RecurringTransfer) :
    List (Uuid × RecurringTransfer) :=
  (c.order ((T.entries.filter fun e => e.2.active ∧ e.2.nextRunAt ≤ c.now).map
    fun e => (e.1, e.2))).take 100

/-- The transfer of an occurrence. -/
def ScanCall.transfer (c : ScanCall) (id : Uuid) (r : RecurringTransfer) : InitiateCall :=
  putAside (c.drawn id) r.userId (occurrenceKey id r.nextRunAt) r.fromAccountId r.toAccountId
    r.amountCents "Recurring transfer"

/-- The row, moved on from what was read of it. -/
def ScanCall.reschedule (c : ScanCall) (r row : RecurringTransfer) : RecurringTransfer :=
  { row with
    lastRunAt := some c.now
    nextRunAt := computeNextRunAt c.now r.frequency r.dayOf }

/-- What a scan does for one schedule, up to an error. -/
def runRow (env : Env) (me : ℕ) (c : ScanCall) (id : Uuid) (r : RecurringTransfer) :
    RecurringService RecurringTransfer := do
  let _ ← (initiate env me (c.transfer id r)).zoom worldPart
  statement (updateRow id (c.reschedule r))

/-- The loop of `runDueNow`, with the number of schedules moved on so far. -/
def runRows (env : Env) (me : ℕ) (c : ScanCall) :
    List (Uuid × RecurringTransfer) → ℕ → RecurringService ℕ
  | [], count => return count
  | (id, r) :: due, count => do
    let count ← tryCatch (do
      let _ ← runRow env me c id r
      return count + 1) fun _ => return count
    runRows env me c due count

/-- `RecurringTransfersService.runDueNow`. -/
def runDueNow (env : Env) (me : ℕ) (c : ScanCall) : RecurringService ℕ := do
  let due ← find fun s => c.due s.recurring
  runRows env me c due 0

/-- The calls on schedules, among those of the bank. -/
inductive RecurringCall
  | create (c : CreateCall)
  | update (c : UpdateCall)
  | cancel (userId id : Uuid)
  | scan (c : ScanCall)
  | bank (c : Call)

/-- The answers: a row, nothing, the number of schedules moved on, and those of the bank. -/
inductive RecurringAnswer
  | row (r : RecurringTransfer)
  | done
  | count (n : ℕ)
  | bank (a : Answer)

/-- The program of a call, for thread `me`. -/
def recurringProgram (env : Env) (me : ℕ) : RecurringCall → RecurringService RecurringAnswer
  | .create c => do
    let row ← create c
    return .row row
  | .update c => do
    let row ← update c
    return .row row
  | .cancel userId id => do
    cancel userId id
    return .done
  | .scan c => do
    let n ← runDueNow env me c
    return .count n
  | .bank c => do
    let a ← (program env me c).zoom worldPart
    return .bank a

/-- The call is one of an owner, on a schedule. -/
def RecurringCall.isOwners : RecurringCall → Bool
  | .create _ | .update _ | .cancel _ _ => true
  | _ => false

/-- No caller but the scans uses the key of an occurrence. -/
def RecurringCall.KeyApart : RecurringCall → Prop
  | .bank (.initiate c) => ∀ id at_, c.idempotencyKey ≠ occurrenceKey id at_
  | _ => True

/-! ## The keys -/

/-- **The keys tell occurrences apart.** -/
theorem occurrenceKey_injective {id id' : Uuid} {t t' : Instant}
    (h : occurrenceKey id t = occurrenceKey id' t') : id = id' ∧ t = t' := by
  have hmark := UuidText.colon_notMem_uuidText
  have hlist := congrArg String.toList h
  simp only [occurrenceKey, String.toList_append, toString, List.append_assoc] at hlist
  obtain ⟨hid, htime⟩ :=
    UuidText.append_cons_inj (hmark id) (hmark id') (List.append_cancel_left hlist)
  exact ⟨UuidText.uuidText_injective (String.toList_injective hid),
    toISOString_injective (String.toList_injective htime)⟩

end BankDemo.Recurring
