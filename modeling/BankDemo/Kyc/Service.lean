import BankDemo.Signup.Calls

/-!
# The KYC service

`KycService.approve` and `KycService.reject` on the KYC records of the registry. Both write to the
record by its id, whatever its status says, so a record can be decided any number of times. The
columns that a review sets are kept apart from the records, in `reviews`.
-/

namespace BankDemo.Kyc

/-- The columns of a KYC record that a review sets. -/
structure Review where
  reviewedAt : Instant
  reviewedByUserId : Uuid
  rejectionReason : Option String
  deriving DecidableEq

/-- The registry with the reviews of its KYC records. -/
structure Office where
  registry : Signup.Registry
  reviews : Table Uuid Review

/-- The registry, as a part of the office. -/
def Office.registryPart : Prog.Part Office Signup.Registry where
  get := Office.registry
  put r o := { o with registry := r }
  get_put _ _ := rfl
  put_get _ := rfl
  put_put _ _ _ := rfl

/-- The KYC records. -/
def Office.records (o : Office) : Table Uuid Signup.KycRecord := o.registry.db.kycRecords

/-- The office with other KYC records. -/
def Office.setRecords (o : Office) (records : Table Uuid Signup.KycRecord) : Office :=
  { o with registry := { o.registry with db := { o.registry.db with kycRecords := records } } }

@[simp] theorem records_setRecords (o : Office) (records : Table Uuid Signup.KycRecord) :
    (o.setRecords records).records = records := rfl

/-- The payload of `kyc.approved`. -/
structure KycApprovedPayload where
  userId : Uuid
  kycId : Uuid
  reviewedByUserId : Uuid
  at_ : Instant
  deriving DecidableEq

/-- `kycRecord.update`: the row it leaves. -/
def updateRecord (kycId : Uuid) (f : Signup.KycRecord → Signup.KycRecord) (review : Review) :
    Prog Office Error Signup.KycRecord :=
  .attempt (fun _ => true) fun o => match o.records.lookup kycId with
    | none => .error .recordNotFound
    | some row => .ok (f row,
      { o.setRecords (o.records.insert kycId (f row)) with
        reviews := o.reviews.insert kycId review })

/-- `KycService.approve`: the event it emits. -/
def approve (now : Instant) (kycId reviewerUserId : Uuid) : Prog Office Error KycApprovedPayload := do
  let updated ← updateRecord kycId (fun row => { row with status := .approved })
    ⟨now, reviewerUserId, none⟩
  return ⟨updated.userId, kycId, reviewerUserId, now⟩

/-- `KycService.reject`. -/
def reject (now : Instant) (kycId reviewerUserId : Uuid) (reason : String)
    (missingFields : List String) : Prog Office Error Signup.KycRecord :=
  updateRecord kycId (fun row => { row with status := .rejected, missingFields })
    ⟨now, reviewerUserId, some reason⟩

/-- The deletion of a user, as far as it is in these tables. -/
def forget (userId : Uuid) : Prog Office Error Unit := do
  .modify (fun _ => true) fun o => { o with
    reviews := o.reviews.deleteMany fun id _ => (o.records.lookup id).any fun r => r.userId = userId }
  (Signup.deleteUser userId).zoom Office.registryPart

/-! ## The queue -/

/-- The record waits for a decision. -/
def queued (r : Signup.KycRecord) : Bool := r.status = .pending || r.status = .inReview

/-- `queueCounts().kycPending`. -/
def Office.kycPending (o : Office) : ℕ := o.records.count fun _ r => queued r

/-- `queueCounts().kycApproved`. -/
def Office.kycApproved (o : Office) : ℕ := o.records.count fun _ r => r.status = .approved

end BankDemo.Kyc
