import BankDemo.Admin.Users
import BankDemo.Admin.Wires
import BankDemo.Kyc.Service
import BankDemo.Signup.Completion

/-!
# The admins' desk

The badges of the admins' sidebar count the transfers that wait for a review and the KYC records
that wait for a decision. The counts are read once (`queueCounts`); from then on the sidebar adds up
the deltas of the `admin.queue.changed` events. `Desk` is what the operations act on that move a
transfer or a record into its queue or out of it: the bank's world, and the registry with its KYC
records. The events that carry a `transferReviewDelta` are among those of the world; of the others
only the `kycDelta` is kept.

Users are rows of the bank and of the registry alike, with different columns: a sign-up that
completes makes both, and a deletion takes both.
-/

namespace BankDemo.Admin

open Transfers

structure Desk where
  bank : World
  office : Kyc.Office
  /-- The `kycDelta`s of the events. -/
  kycDeltas : List ℤ

namespace Desk

/-- The bank, as a part of the desk. -/
def bankPart : Prog.Part Desk World where
  get := Desk.bank
  put w d := { d with bank := w }
  get_put _ _ := rfl
  put_get _ := rfl
  put_put _ _ _ := rfl

/-- The KYC office, as a part of the desk. -/
def officePart : Prog.Part Desk Kyc.Office where
  get := Desk.office
  put o d := { d with office := o }
  get_put _ _ := rfl
  put_get _ := rfl
  put_put _ _ _ := rfl

end Desk

/-! ## The queues -/

/-- The transfer waits for a review. -/
def waiting (t : Transfer) : Bool := t.requiresReview && t.reviewedAt.isNone

/-- `queueCounts().transferReviewPending`. -/
def reviewPending (db : Db) : ℕ := db.transfers.count fun _ t => waiting t

structure QueueCounts where
  kycPending : ℕ
  kycApproved : ℕ
  transferReviewPending : ℕ
  deriving DecidableEq

/-- `AdminTransfersService.queueCounts`. -/
def queueCounts (d : Desk) : QueueCounts where
  kycPending := d.office.kycPending
  kycApproved := d.office.kycApproved
  transferReviewPending := reviewPending d.bank.db

/-- The `transferReviewDelta` of an event, zero where it has none. -/
def reviewDelta : Event → ℤ
  | .adminQueueChanged transferReviewDelta => transferReviewDelta
  | _ => 0

/-- What the events add up to on the badge of the reviews. -/
def reviewBadge (events : List Event) : ℤ := (events.map reviewDelta).sum

/-- What the events add up to on the badge of the KYC records. -/
def kycBadge (d : Desk) : ℤ := d.kycDeltas.sum

/-! ## The operations -/

/-- A call of `AdminKycService.decide`. -/
structure DecideKycCall where
  actorUserId : Uuid
  kycId : Uuid
  decision : ReviewDecision
  reason : Option String
  missingFields : Option (List String)
  now : Instant

/-- Emit an event with this `kycDelta`. -/
def emitKycDelta (kycDelta : ℤ) : Prog Desk Error Unit :=
  .modify (fun _ => true) fun d => { d with kycDeltas := d.kycDeltas ++ [kycDelta] }

/-- `AdminKycService.decide`. -/
def decideKyc (c : DecideKycCall) : Prog Desk Error Unit :=
  match c.decision with
  | .approved => do
    let _ ← (Kyc.approve c.now c.kycId c.actorUserId).zoom Desk.officePart
    emitKycDelta (-1)
  | .rejected => do
    let _ ← (Kyc.reject c.now c.kycId c.actorUserId (c.reason.getD "rejected")
      (c.missingFields.getD [])).zoom Desk.officePart
    emitKycDelta (-1)

/-- The user of a sign-up and the owner of its KYC record, as the bank has them. -/
def enroll (userId kycId : Uuid) (user : Signup.User) (db : Db) : Db :=
  { db with
    users := db.users.insert userId
      { email := user.email
        firstName := user.firstName
        lastName := user.lastName
        novaTag := none
        role := .customer
        transfersDisabled := false
        phoneE164 := user.phoneE164 }
    owned := db.owned.insert (.kycRecord, kycId) userId }

/-- `SignupService.complete`: the user it makes. -/
def completeSignup (c : Signup.CompleteCall) : Prog Desk Error Uuid := do
  let userId ← ((Signup.completeHandler c).zoom Kyc.Office.registryPart).zoom Desk.officePart
  .modify (fun _ => true) fun d => match d.office.registry.db.users.lookup userId with
    | none => d
    | some user => { d with bank := { d.bank with db := enroll userId c.kycId user d.bank.db } }
  return userId

/-- `AdminUsersService.hardDelete`. -/
def Desk.hardDelete (toLowerCase : String → String) (me : ℕ) (c : HardDeleteCall) :
    Prog Desk Error DeletedCounts := do
  let counts ← (Admin.hardDelete toLowerCase me c).zoom Desk.bankPart
  (Kyc.forget c.targetUserId).zoom Desk.officePart
  return counts

/-- The operations on the desk. -/
inductive DeskCall
  | initiate (c : InitiateCall)
  | settle (c : ProcessCall)
  | decide (c : DecideCall)
  | approve (c : ApproveCall)
  | reverse (c : ReverseCall)
  | decideKyc (c : DecideKycCall)
  | complete (c : Signup.CompleteCall)
  | hardDelete (c : HardDeleteCall)

/-- The handler of an operation; what it answers is left out. -/
def handleDesk (env : Env) (toLowerCase : String → String) (me : ℕ) :
    DeskCall → Prog Desk Error Unit
  | .initiate c => do
    let _ ← (initiate env me c).zoom Desk.bankPart
    pure ()
  | .settle c => (process me c).zoom Desk.bankPart
  | .decide c => (decideTransfer me c).zoom Desk.bankPart
  | .approve c => (approveWire me c).zoom Desk.bankPart
  | .reverse c => (reverseWire me c).zoom Desk.bankPart
  | .decideKyc c => decideKyc c
  | .complete c => do
    let _ ← completeSignup c
    pure ()
  | .hardDelete c => do
    let _ ← Desk.hardDelete toLowerCase me c
    pure ()

/-- The desk after an operation, one after the other. -/
def afterCall (env : Env) (toLowerCase : String → String) (d : Desk) (c : DeskCall) : Desk :=
  ((handleDesk env toLowerCase 0 c).run d).2

/-- The desk after a sequence of operations. -/
def afterCalls (env : Env) (toLowerCase : String → String) (d : Desk) (calls : List DeskCall) :
    Desk :=
  calls.foldl (afterCall env toLowerCase) d

end BankDemo.Admin
