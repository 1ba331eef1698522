import BankDemo.Admin.Transactions
import BankDemo.Admin.Wires

/-!
# The calls of the system

The services that move money, as one family of programs over the shared world. Calls may overlap
in any way (`Run (program env)`), or be taken one at a time, each as one atomic step
(`Sequence env`).
-/

namespace BankDemo

open Transfers Admin

/-- A call of a service. `process` is a run of the settlement worker from a timer or a delivery of
its job, `runJob` an attempt of the queue with its failure handler. -/
inductive Call
  | initiate (c : InitiateCall)
  | process (c : ProcessCall)
  | runJob (c : ProcessCall)
  | forceSettle (c : ForceSettleCall)
  | decide (c : DecideCall)
  | approve (c : ApproveCall)
  | reverse (c : ReverseCall)
  | markFailed (id : Uuid) (reason : String) (now : Instant)
  | patch (c : EditCall) (dto : PatchDto)
  | create (c : EditCall) (dto : CreateDto)
  | delete (c : EditCall)
  | hide (c : EditCall)
  | clearOverride (c : EditCall)
  | bulkShift (superadmin : Bool) (c : EditCall) (transactionIds : List Uuid) (shiftDays : ℤ)

/-- The answer of a call; only that of `initiate` is kept. -/
abbrev Answer := Option InitiateResult

/-- A call without an answer that is kept. -/
def silently {α : Type} (p : Service α) : Service Answer := do
  let _ ← p
  return none

/-- The program of a call, for thread `me`. -/
def program (env : Env) (me : ℕ) : Call → Service Answer
  | .initiate c => do
    let r ← initiate env me c
    return some r
  | .process c => silently (process me c)
  | .runJob c => silently (runJob me c)
  | .forceSettle c => silently (forceSettle me c)
  | .decide c => silently (decideTransfer me c)
  | .approve c => silently (approveWire me c)
  | .reverse c => silently (reverseWire me c)
  | .markFailed id reason now => silently (markFailed me id reason now)
  | .patch c dto => silently (patch env me c dto)
  | .create c dto => silently (create env me c dto)
  | .delete c => silently (delete env me c)
  | .hide c => silently (hide env me c)
  | .clearOverride c => silently (clearOverride me c)
  | .bulkShift superadmin c ids days => silently (bulkShift me superadmin c ids days)

namespace Call

/-- The settlement a call may make at once. -/
def worker : Call → Option ProcessCall
  | .process c | .runJob c => some c
  | .forceSettle c => some c.worker
  | .decide c => if c.decision = .approved then some c.settle.worker else none
  | .approve c => some c.settle.worker
  | _ => none

/-- The `forceSettle` in a call. -/
def force : Call → Option ForceSettleCall
  | .forceSettle c => some c
  | .decide c => if c.decision = .approved then some c.settle else none
  | .approve c => some c.settle
  | _ => none

/-- The approval in a call: the transfer and the columns it sets. -/
def approval : Call → Option (Uuid × (Transfer → Transfer))
  | .decide c => if c.decision = .approved then
      some (c.transferId, stampApproved c.actorUserId c.reason c.now) else none
  | .approve c => some (c.transferId, stampApproved c.actorUserId c.reason c.now)
  | _ => none

/-- The transfer a call may mark as failed. -/
def failing : Call → Option Uuid
  | .markFailed id _ _ => some id
  | .runJob c => some c.transferId
  | _ => none

/-- The transfer a call acts on, if it is one on a transfer that exists. -/
def subject : Call → Option Uuid
  | .process c | .runJob c => some c.transferId
  | .forceSettle c => some c.transferId
  | .decide c => some c.transferId
  | .approve c => some c.transferId
  | .reverse c => some c.transferId
  | .markFailed id _ _ => some id
  | _ => none

/-- The ids a call draws for the rows it makes. -/
def draws : Call → List Uuid
  | .initiate c => [c.transferId, c.pendingTxId]
  | .process c | .runJob c => [c.settledTxId, c.inflowTxId]
  | .forceSettle c => [c.worker.settledTxId, c.worker.inflowTxId]
  | .decide c => [c.settle.worker.settledTxId, c.settle.worker.inflowTxId]
  | .approve c => [c.settle.worker.settledTxId, c.settle.worker.inflowTxId]
  | .reverse c => [c.reversalTxId]
  | .create c _ => [c.transactionId]
  | _ => []

/-- The transactions a call may delete. -/
def deletes : Call → List Uuid
  | .delete c => [c.transactionId]
  | _ => []

/-- The call edits a transaction. -/
def isEdit : Call → Bool
  | .patch .. | .create .. | .delete .. | .hide .. | .clearOverride .. | .bulkShift .. => true
  | _ => false

theorem subject_of_worker {c : Call} {pc : ProcessCall} (h : c.worker = some pc) :
    c.subject = some pc.transferId := by
  cases c with
  | process | runJob | forceSettle | approve =>
    cases h
    rfl
  | decide dc =>
    simp only [worker] at h
    split at h
    · cases h
      rfl
    · cases h
  | _ => cases h

theorem subject_of_force {c : Call} {fc : ForceSettleCall} (h : c.force = some fc) :
    c.subject = some fc.transferId := by
  cases c with
  | forceSettle | approve =>
    cases h
    rfl
  | decide dc =>
    simp only [force] at h
    split at h
    · cases h
      rfl
    · cases h
  | _ => cases h

theorem subject_of_approval {c : Call} {id : Uuid} {f : Transfer → Transfer}
    (h : c.approval = some (id, f)) : c.subject = some id := by
  cases c with
  | approve =>
    cases h
    rfl
  | decide dc =>
    simp only [approval] at h
    split at h
    · cases h
      rfl
    · cases h
  | _ => cases h

theorem subject_of_failing {c : Call} {id : Uuid} (h : c.failing = some id) :
    c.subject = some id := by
  cases c with
  | markFailed | runJob =>
    cases h
    rfl
  | _ => cases h

theorem worker_of_isEdit {c : Call} (h : c.isEdit = true) : c.worker = none := by
  cases c with
  | patch | create | delete | hide | clearOverride | bulkShift => rfl
  | _ => cases h

end Call

/-! ## A small bank

Two customers, to run calls on. -/

/-- The default configuration, with upper-casing of ASCII and identifiers in decimal. -/
def sampleEnv : Env where
  cfg := .default
  overrideRateLimit := 60
  toUpperCase := fun s => String.ofList (s.toList.map Char.toUpper)
  parseUuid := String.toNat?

/-- Ann has account 10 with 5000.00 on it, Bob the empty account 20. -/
def sampleDb : Db where
  users := ((∅ : Table Uuid User).insert 1
    ⟨"ann@example.org", some "Ann", none, none, .customer, false, none⟩).insert 2
    ⟨"bob@example.org", some "Bob", none, none, .customer, false, none⟩
  accounts := ((∅ : Table Uuid Account).insert 10
    ⟨1, .checking, "Checking", 500000, .active⟩).insert 20
    ⟨2, .checking, "Checking", 0, .active⟩
  transactions := ∅
  overrides := ∅
  ledgerAccounts := Ledger.systemLedgerSeeds.foldl (fun L x => L.insert x.1 x.2) ∅
  journal := []
  transfers := ∅
  wireBeneficiaries := ∅
  linkedAccounts := ∅
  paymentRequests := ∅
  goals := ∅
  autosaveConfigs := ∅
  roundUps := ∅
  checkDeposits := ∅
  sessions := ∅
  documents := ∅
  passwordResets := ∅
  owned := ∅
  signupSessions := ∅
  verifications := ∅

/-- The bank before any call. -/
def sampleWorld : World := ⟨sampleDb, fun _ => none, ∅, ∅, []⟩

/-- Ann sends `amountCents` from her account to account `to_`, as transfer `id`. -/
def samplePay (kind : TransferKind) (to_ id : Uuid) (amountCents : ℤ) (instant : Bool) :
    InitiateCall where
  userId := 1
  idempotencyKey := s!"key-{id}"
  dto := {
    fromAccountId := 10
    toAccountId := some to_
    externalRef := none
    kind, amountCents, instant
    note := none
    wireDetails := if kind = .wireOut then some ⟨.international, "Carl", some "BIC", some "IBAN"⟩
      else none
    sendCurrency := none
    sendAmountMinor := none }
  convert := fun _ _ => .error (.badRequest "no rate")
  transferId := id
  pendingTxId := id + 1
  now := 0
  queueUp := true

/-- A run of the worker on transfer `id`, with fresh ids. -/
def sampleSettle (id fresh : Uuid) : ProcessCall := ⟨id, fresh, fresh + 1, 0⟩

/-- The settlement of transfer `id` without a queue. -/
def sampleForce (id fresh : Uuid) : ForceSettleCall := ⟨sampleSettle id fresh, false⟩

/-- An approval of wire `id` from the wires dashboard. -/
def sampleApprove (id fresh : Uuid) : ApproveCall := ⟨9, none, 0, sampleForce id fresh⟩

/-- A decision on transfer `id`. -/
def sampleDecide (decision : ReviewDecision) (id fresh : Uuid) : DecideCall :=
  ⟨9, decision, some "reviewed", 0, sampleForce id fresh⟩

/-- A reversal of wire `id`. -/
def sampleReverse (id fresh : Uuid) : ReverseCall := ⟨9, id, "recalled", fresh, 0⟩

/-- A schedule that takes calls one after the other, each to its end. -/
def oneByOne (cs : List Call) : List (Choice Call) :=
  (cs.zipIdx.map fun c => Choice.call c.1 :: List.replicate 16 (Choice.step c.2)).flatten

theorem mem_oneByOne {c : Call} {cs : List Call} (h : Choice.call c ∈ oneByOne cs) : c ∈ cs := by
  obtain ⟨l, hl, hc⟩ := List.mem_flatten.1 h
  obtain ⟨⟨c', i⟩, hci, rfl⟩ := List.mem_map.1 hl
  rcases List.mem_cons.1 hc with hc | hc
  · cases hc
    exact List.fst_mem_of_mem_zipIdx hci
  · simp at hc

theorem sample_no_transfers (id : Uuid) (t : Transfer) :
    sampleWorld.db.transfers.lookup id ≠ some t := by
  intro h
  cases h

end BankDemo
