import BankDemo.System.Calls
import BankDemo.System.Initiate

/-!
# Payment requests

`PaymentRequestsService.pay` pays a request by a transfer from an account of the payer to the
requester's checking account, and marks it paid; `PaymentRequestsService.decline` turns it down.
Both read the request, want it pending, and later write by its id. The transfer is made by
`initiate` under a key that the caller chooses: when the key was used before, `initiate` answers
with the transfer that is there, whatever it was for.

Among other calls of its kind, a step of theirs is a `RequestChange` (`request_follows`): the
request was seen pending some time before.
-/

namespace BankDemo.PaymentRequests

open Ledger Transfers

/-- A call of `pay`, with what `initiate` takes beside the request. -/
structure PayCall where
  userId : Uuid
  requestId : Uuid
  idempotencyKey : String
  fromAccountId : Uuid
  convert : ℤ → String → Except Error FxConversion
  transferId : Uuid
  pendingTxId : Uuid
  now : Instant
  queueUp : Bool

/-- A call of `decline`. -/
structure DeclineCall where
  userId : Uuid
  requestId : Uuid

/-! ## The service -/

/-- `paymentRequest.update`: the row it leaves. -/
def updateRequest (id : Uuid) (f : PaymentRequest → PaymentRequest) : Tx PaymentRequest :=
  fun db =>
    match db.paymentRequests.lookup id with
    | none => .error .recordNotFound
    | some row =>
      .ok (f row, { db with paymentRequests := db.paymentRequests.insert id (f row) })

/-- The check that both calls begin with. -/
def pendingRequest (userId id : Uuid) : Service PaymentRequest := do
  let row ← query fun db => db.paymentRequests.lookup id
  match row with
  | none => throw (.notFound "Request not found")
  | some row =>
    if row.payerUserId ≠ some userId then throw (.notFound "Request not found")
    else if row.status ≠ .pending then throw (.badRequest "Not pending")
    else return row

def stampDeclined (row : PaymentRequest) : PaymentRequest := { row with status := .declined }

def stampExpired (row : PaymentRequest) : PaymentRequest := { row with status := .expired }

/-- The columns a payment sets. -/
def stampPaid (now : Instant) (transferId : Uuid) (row : PaymentRequest) : PaymentRequest :=
  { row with status := .paid, paidAt := some now, paidTransferId := some transferId }

/-- `PaymentRequestsService.decline`. -/
def decline (me : ℕ) (c : DeclineCall) : Service PaymentRequest := do
  let _ ← pendingRequest c.userId c.requestId
  transaction me [] (updateRequest c.requestId stampDeclined)

/-- The transfer that `pay` asks for. -/
def payment (c : PayCall) (row : PaymentRequest) (toAccountId : Uuid) : InitiateCall where
  userId := c.userId
  idempotencyKey := c.idempotencyKey
  dto := {
    fromAccountId := c.fromAccountId
    toAccountId := some toAccountId
    externalRef := none
    kind := .p2p
    amountCents := row.amountCents
    instant := false
    note := some row.note
    wireDetails := none
    sendCurrency := none
    sendAmountMinor := none }
  convert := c.convert
  transferId := c.transferId
  pendingTxId := c.pendingTxId
  now := c.now
  queueUp := c.queueUp

/-- `pay`, the request having been read. -/
def payPending (env : Env) (me : ℕ) (c : PayCall) (row : PaymentRequest) :
    Service (PaymentRequest × InitiateResult) := do
  let requesterChecking ← query fun db => db.findActive row.requesterUserId .checking
  match requesterChecking with
  | none => throw (.badRequest "Requester has no active checking account")
  | some account => do
    let result ← initiate env me (payment c row account.1)
    let updated ← transaction me []
      (updateRequest c.requestId (stampPaid c.now result.transferId))
    return (updated, result)

/-- `PaymentRequestsService.pay`. -/
def pay (env : Env) (me : ℕ) (c : PayCall) : Service (PaymentRequest × InitiateResult) := do
  let row ← pendingRequest c.userId c.requestId
  if row.expiresAt < c.now then do
    let _ ← transaction me [] (updateRequest c.requestId stampExpired)
    throw (.badRequest "Request expired")
  else payPending env me c row

/-- The calls on payment requests. -/
inductive RequestCall
  | pay (c : PayCall)
  | decline (c : DeclineCall)

/-- The request a call is about. -/
def RequestCall.requestId : RequestCall → Uuid
  | .pay c => c.requestId
  | .decline c => c.requestId

/-- The key of a payment. -/
def RequestCall.key : RequestCall → Option String
  | .pay c => some c.idempotencyKey
  | .decline _ => none

/-- The program of a call, for thread `me`. -/
def requestProgram (env : Env) (me : ℕ) : RequestCall → Service Answer
  | .pay c => silently (pay env me c)
  | .decline c => silently (decline me c)

/-! ## What the actions do -/

/-- A row of the requests table, as it was at some time. -/
def RequestSeen (h : List World) (id : Uuid) (row : PaymentRequest) : Prop :=
  ∃ w ∈ h, w.db.paymentRequests.lookup id = some row

/-- Only columns of one request were set. -/
def RequestStamped (id : Uuid) (f : PaymentRequest → PaymentRequest) (db db' : Db) : Prop :=
  ∃ T, db' = { db with paymentRequests := T } ∧ Table.Updated id f db.paymentRequests T

theorem updateRequest_ok {id : Uuid} {f : PaymentRequest → PaymentRequest} {db : Db}
    {r : PaymentRequest × Db} (h : updateRequest id f db = .ok r) :
    RequestStamped id f db r.2 := by
  unfold updateRequest at h
  split at h
  · cases h
  · rename_i row hrow
    cases h
    exact ⟨_, rfl, row, hrow, rfl⟩

/-- What an action of a call can do to the database, after the worlds `h`. -/
inductive RequestChange (env : Env) (h : List World) (db db' : Db) : RequestCall → Prop
  | quiet {c : RequestCall} (hdb : db' = db) : RequestChange env h db db' c
  | debited {c : PayCall} {row : PaymentRequest} {toAccountId : Uuid} {t : Transfer}
      (hseen : RequestSeen h c.requestId row) (hpayer : row.payerUserId = some c.userId)
      (hto : OwnerSeen h toAccountId row.requesterUserId)
      (hfrom : OwnerSeen h c.fromAccountId c.userId)
      (hadmitted : Admitted env (payment c row toAccountId) t)
      (hdirected : t.toAccountId = some toAccountId)
      (hinitiated : Initiated (payment c row toAccountId) t db db') :
      RequestChange env h db db' (.pay c)
  | paid {c : PayCall} {id : Uuid} {t : Transfer} (hseen : Seen h id t)
      (hkey : t.idempotencyKey = c.idempotencyKey)
      (hstamped : RequestStamped c.requestId (stampPaid c.now id) db db') :
      RequestChange env h db db' (.pay c)
  | expired {c : PayCall} (hstamped : RequestStamped c.requestId stampExpired db db') :
      RequestChange env h db db' (.pay c)
  | declined {c : DeclineCall} (hstamped : RequestStamped c.requestId stampDeclined db db') :
      RequestChange env h db db' (.decline c)

/-- What an action of thread `i` guarantees. -/
def requestGuar (env : Env) (i : ℕ) (c : RequestCall) (h : List World) (w' : World) : Prop :=
  ∀ w past, h = w :: past → RequestChange env h w.db w'.db c ∧ ∀ j, j ≠ i → Keeps j w w'

/-- The discipline of the calls on payment requests. -/
def requests (env : Env) : Discipline World Error Answer RequestCall where
  rely := rely
  guar := requestGuar env
  post := fun _ _ _ => True
  rely_trans := rely_trans
  rely_of_guar := fun hij hg => rely_own ((hg _ _ rfl).2 _ (Ne.symm hij))
  post_mono := fun _ => trivial

section Follows

variable {env : Env} {i : ℕ} {c : RequestCall} {h : List World} {α : Type}

instance : Idles i (requestGuar env i c) where
  idle := by
    intro w w' past hdb hkeeps x px hx
    cases hx
    exact ⟨.quiet hdb, hkeeps⟩

theorem RequestStamped.balance {id : Uuid} {f : PaymentRequest → PaymentRequest} {db db' : Db}
    (hs : RequestStamped id f db db') (x : Uuid) : db'.balance x = db.balance x := by
  obtain ⟨T, rfl, -⟩ := hs
  rfl

/-- A write of a request, which a change allows. -/
theorem update_follows {id : Uuid} {f : PaymentRequest → PaymentRequest}
    (hf : ∀ w past db', rely i h (w :: past) → RequestStamped id f w.db db' →
      RequestChange env (w :: past) w.db db' c) :
    (transaction i [] (updateRequest id f)).Follows (rely i) (requestGuar env i c)
      (fun _ _ => True) h := by
  refine follows_commit (fun w past r db' hR hb => ?_) fun _ _ _ => trivial
  have hstamped : RequestStamped id f w.db db' := updateRequest_ok hb
  refine ⟨fun x _ => hstamped.balance x, fun hkeeps x px hx => ?_, trivial⟩
  cases hx
  exact ⟨hf w past db' hR hstamped, hkeeps⟩

/-- The check, then more: the request was seen, with the caller as its payer. -/
theorem pendingRequest_follows {userId id : Uuid} {k : PaymentRequest → Service α}
    (hk : ∀ row h', RequestSeen h' id row → row.payerUserId = some userId →
      (k row).Follows (rely i) (requestGuar env i c) (fun _ _ => True) h') :
    (pendingRequest userId id >>= k).Follows (rely i) (requestGuar env i c) (fun _ _ => True)
      h := by
  refine Prog.follows_bind (follows_query fun w past _ => ?_)
  cases hrow : w.db.paymentRequests.lookup id with
  | none => exact Prog.follows_throw trivial
  | some row =>
    simp only
    split
    · exact Prog.follows_throw trivial
    · rename_i hpayer
      split
      · exact Prog.follows_throw trivial
      · exact Prog.follows_pure (hk row _ ⟨w, List.mem_cons_self, hrow⟩ (not_not.1 hpayer))

theorem decline_follows {dc : DeclineCall} :
    (decline i dc).Follows (rely i) (requestGuar env i (.decline dc)) (fun _ _ => True) h :=
  pendingRequest_follows fun _ _ _ _ => update_follows fun _ _ _ _ hstamped => .declined hstamped

theorem payPending_follows {pc : PayCall} {row : PaymentRequest}
    (hseen : RequestSeen h pc.requestId row) (hpayer : row.payerUserId = some pc.userId) :
    (payPending env i pc row).Follows (rely i) (requestGuar env i (.pay pc)) (fun _ _ => True)
      h := by
  refine follows_query fun w past hR => ?_
  cases hto : w.db.findActive row.requesterUserId .checking with
  | none => exact Prog.follows_throw trivial
  | some account =>
    obtain ⟨toAccountId, acct⟩ := account
    obtain ⟨hacct, hcheck⟩ := Table.findRow_some hto
    have howner : acct.userId = row.requesterUserId := (of_decide_eq_true hcheck).1
    -- what is known of the request and the account when `initiate` begins
    obtain ⟨w₁, hw₁, hrow⟩ := hseen
    have hw₁' : w₁ ∈ w :: w :: past := List.mem_cons_of_mem _ (hR.1 w₁ hw₁)
    have hcovers : CoversDebit env i (payment pc row toAccountId) fun h' w' =>
        (∀ v ∈ w :: w :: past, v ∈ h') → requestGuar env i (.pay pc) h' w' := by
      intro w' past' db' t hadmitted hdirected hfrom _ hinitiated hkeeps hmem x px hx
      cases hx
      exact ⟨.debited ⟨w₁, hmem w₁ hw₁', hrow⟩ hpayer
        ⟨w, hmem w List.mem_cons_self, acct, hacct, howner⟩ hfrom hadmitted
        (hdirected (by simp [payment])) hinitiated, hkeeps⟩
    have hinit := follows_recall (initiate_resolves hcovers (w :: w :: past)) fun _ hv => hv
    refine Prog.follows_bind (hinit.imp fun h' r hr => ?_)
    cases r with
    | error e => trivial
    | ok res =>
      obtain ⟨t, hseen', hkey, -⟩ := hr res rfl
      refine Prog.Follows.seq (update_follows fun w' past' db' hR' hstamped => ?_)
        fun _ _ => Prog.follows_pure trivial
      exact .paid (hseen'.mono hR'.1) hkey hstamped

theorem pay_follows {pc : PayCall} :
    (pay env i pc).Follows (rely i) (requestGuar env i (.pay pc)) (fun _ _ => True) h := by
  refine pendingRequest_follows fun row h' hseen hpayer => ?_
  split
  · exact Prog.Follows.seq (update_follows fun _ _ _ _ hstamped => .expired hstamped)
      fun _ _ => Prog.follows_throw trivial
  · exact payPending_follows hseen hpayer

/-- **Every call on a payment request follows the discipline**, in whatever company. -/
theorem request_follows (env : Env) (i : ℕ) (c : RequestCall) (h : List World) :
    (requestProgram env i c).Follows (rely i) (requestGuar env i c) (fun _ _ => True) h := by
  cases c with
  | pay pc => exact pay_follows.seq fun _ _ => Prog.follows_pure trivial
  | decline dc => exact decline_follows.seq fun _ _ => Prog.follows_pure trivial

end Follows

end BankDemo.PaymentRequests
