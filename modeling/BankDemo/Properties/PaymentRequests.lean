import BankDemo.PaymentRequests.Service
import BankDemo.System.Frame
import BankDemo.System.Owners

/-!
# Payment requests: paid once, by their own transfer

A call of `pay` writes three times: the transfer, the mark on the request, or the mark that it has
expired; `decline` writes once. Each write is keyed by the id alone, some time after the check, and
the key of the transfer is the caller's: a key that was used before makes `pay` mark its request as
paid by the transfer that is there (`request_paid_by_other`).

`requests_sound`: where no write finds the request already dealt with in another way and no
payment finds, under its key, a transfer that was not made for its request (`Orderly`), every paid
request is backed by one transfer of its amount from the payer to the requester, and a refused one
by none.
-/

namespace BankDemo

open Ledger Transfers PaymentRequests

/-! ## The property -/

/-- The transfer that a step makes, and the request it is made for. -/
def madeBy (x : Step World RequestCall) : Option (Uuid × Uuid) :=
  match x.call with
  | .pay c =>
    if (x.pre.db.transfers.lookup c.transferId).isNone ∧
        (x.post.db.transfers.lookup c.transferId).isSome then
      some (c.requestId, c.transferId)
    else none
  | .decline _ => none

/-- The step makes the transfer `id` for the request `r`. -/
def Makes (r id : Uuid) (x : Step World RequestCall) : Prop := madeBy x = some (r, id)

/-- The transfer `id` was made for the request `r`. -/
def MadeFor (tr : List (Step World RequestCall)) (r id : Uuid) : Prop := ∃ x ∈ tr, Makes r id x

/-- The status of a request. -/
def Db.requestStatus (db : Db) (r : Uuid) : Option PaymentRequestStatus :=
  (db.paymentRequests.lookup r).map PaymentRequest.status

/-- The request was declined or has expired. -/
def Refused (db : Db) (r : Uuid) : Prop :=
  db.requestStatus r = some .declined ∨ db.requestStatus r = some .expired

/-- The transfer is what the request asks for: its amount, from an account of the payer to an
account of the requester. -/
structure Backs (db : Db) (row : PaymentRequest) (t : Transfer) : Prop where
  kind : t.kind = .p2p
  amount : t.amountCents = row.amountCents
  payer : row.payerUserId = some t.initiatedByUserId
  from_ : ∃ acct, db.accounts.lookup t.fromAccountId = some acct ∧
    row.payerUserId = some acct.userId
  to_ : ∃ a acct, t.toAccountId = some a ∧ db.accounts.lookup a = some acct ∧
    acct.userId = row.requesterUserId

/-- Requests and transfers agree. -/
structure RequestsSound (tr : List (Step World RequestCall)) (db : Db) : Prop where
  /-- A paid request is backed by exactly one transfer. -/
  backed : ∀ r row, db.paymentRequests.lookup r = some row → row.status = .paid →
    ∃ id t, row.paidTransferId = some id ∧ MadeFor tr r id ∧
      (∀ id', MadeFor tr r id' → id' = id) ∧ db.transfers.lookup id = some t ∧ Backs db row t
  /-- No two paid requests share their transfer. -/
  distinct : ∀ r r' row row', db.paymentRequests.lookup r = some row →
    db.paymentRequests.lookup r' = some row' → row.status = .paid → row'.status = .paid →
    row.paidTransferId = row'.paidTransferId → r = r'
  /-- At most one transfer is initiated for a request. -/
  once : ∀ r, AtMostOnce (fun x => ∃ id, Makes r id x) tr
  /-- A refused request has no transfer, and does not become paid. -/
  refused : ∀ r, Refused db r → ∀ id, ¬ MadeFor tr r id
  stays : ∀ x ∈ tr, ∀ r, Refused x.pre.db r → x.post.db.requestStatus r ≠ some .paid

/-- The step writes the request. -/
def WritesRequest (r : Uuid) (x : Step World RequestCall) : Prop :=
  x.post.db.paymentRequests.lookup r ≠ x.pre.db.paymentRequests.lookup r

/-- No transfer was made for the request. -/
def NoneMade (tr : List (Step World RequestCall)) (r : Uuid) : Prop :=
  ∀ x ∈ tr, (madeBy x).map Prod.fst ≠ some r

/-- The step, after the steps `earlier`, finds its request as it should be: pending and without a
transfer when it makes one; not refused, and with nothing but the request's own transfer under the
key, when it marks the request paid; and without a transfer when it refuses it. -/
structure Orderly (earlier : List (Step World RequestCall)) (x : Step World RequestCall) :
    Prop where
  makes : ∀ m ∈ madeBy x, x.pre.db.requestStatus m.1 = some .pending ∧ NoneMade earlier m.1
  pays : WritesRequest x.call.requestId x →
    x.post.db.requestStatus x.call.requestId = some .paid →
    ¬ Refused x.pre.db x.call.requestId ∧ ∀ e ∈ x.pre.db.transfers.entries,
      x.call.key = some e.2.idempotencyKey → MadeFor earlier x.call.requestId e.1
  refuses : WritesRequest x.call.requestId x → Refused x.post.db x.call.requestId →
    NoneMade earlier x.call.requestId

/-- Every step of a run, newest first, is orderly after those before it. -/
def OrderlyRun : List (Step World RequestCall) → Prop
  | [] => True
  | x :: earlier => Orderly earlier x ∧ OrderlyRun earlier

section Decidable

variable (tr : List (Step World RequestCall)) (x : Step World RequestCall) (r id : Uuid)

instance : Decidable (MadeFor tr r id) :=
  inferInstanceAs (Decidable (∃ x ∈ tr, madeBy x = some (r, id)))

instance : Decidable (NoneMade tr r) := inferInstanceAs (Decidable (∀ x ∈ tr, _ ≠ _))

instance (db : Db) : Decidable (Refused db r) := inferInstanceAs (Decidable (_ ∨ _))

instance : Decidable (WritesRequest r x) := inferInstanceAs (Decidable (_ ≠ _))

instance : Decidable (Orderly tr x) :=
  decidable_of_iff (_ ∧ _ ∧ _) ⟨fun h => ⟨h.1, h.2.1, h.2.2⟩, fun h => ⟨h.makes, h.pays, h.refuses⟩⟩

instance decidableOrderlyRun : (tr : List (Step World RequestCall)) → Decidable (OrderlyRun tr)
  | [] => .isTrue trivial
  | x :: earlier =>
    have := decidableOrderlyRun earlier
    inferInstanceAs (Decidable (Orderly earlier x ∧ OrderlyRun earlier))

end Decidable

section Made

variable {earlier : List (Step World RequestCall)} {x : Step World RequestCall} {r id : Uuid}

theorem makes_iff : Makes r id x ↔ ∃ c, x.call = .pay c ∧ c.requestId = r ∧ c.transferId = id ∧
    x.pre.db.transfers.lookup id = none ∧ (x.post.db.transfers.lookup id).isSome := by
  unfold Makes madeBy
  cases hcall : x.call with
  | decline c => simp
  | pay c =>
    constructor
    · intro h
      simp only [Option.isNone_iff_eq_none] at h
      split at h
      · rename_i hlookups
        simp only [Option.some.injEq, Prod.mk.injEq] at h
        obtain ⟨rfl, rfl⟩ := h
        exact ⟨c, rfl, rfl, rfl, hlookups⟩
      · cases h
    · rintro ⟨c', hc, rfl, rfl, hnone, hsome⟩
      cases hc
      simp only [hnone, hsome, Option.isNone_none, and_self, if_true]

theorem noneMade_iff : NoneMade earlier r ↔ ∀ id, ¬ MadeFor earlier r id := by
  constructor
  · rintro hnone id ⟨x, hx, hmakes⟩
    exact hnone x hx (by rw [hmakes]; rfl)
  · intro hnone x hx hfst
    obtain ⟨⟨r', id⟩, hmakes, rfl⟩ := Option.map_eq_some_iff.1 hfst
    exact hnone id ⟨x, hx, hmakes⟩

theorem OrderlyRun.split {later : List (Step World RequestCall)}
    (h : OrderlyRun (later ++ x :: earlier)) : Orderly earlier x := by
  induction later with
  | nil => exact h.1
  | cons y later ih => exact ih h.2

end Made

/-! ## What a step can do -/

/-- An action moves nothing but money, or writes nothing but requests. -/
def RequestFrame (w w' : World) : Prop :=
  (∃ made, Framed [] made w.db w'.db) ∨ ∃ T, w'.db = { w.db with paymentRequests := T }

section Frame

variable {α β : Type} {i : ℕ}

theorem requestFrame_quiet {p : Service α} (hp : Quiet p) : p.Each RequestFrame := by
  refine Prog.Each.imp hp fun w w' h => .inl ⟨[], ?_⟩
  rw [h.1]
  exact .refl _

theorem requestFrame_update (id : Uuid) (f : PaymentRequest → PaymentRequest) :
    (transaction i [] (updateRequest id f)).Each RequestFrame := by
  refine transaction_each (fun w => .inl ⟨[], .refl _⟩) fun w r hr => ?_
  obtain ⟨T, hT, -⟩ := updateRequest_ok hr
  exact .inr ⟨T, hT⟩

theorem quiet_pendingRequest (userId id : Uuid) : Quiet (pendingRequest userId id) := by
  refine quiet_bind (quiet_query _) fun row => ?_
  cases row with
  | none => exact quiet_throw _
  | some row =>
    simp only
    split
    · exact quiet_throw _
    · split
      · exact quiet_throw _
      · exact quiet_pure row

theorem requestProgram_frames (env : Env) (i : ℕ) (c : RequestCall) :
    (requestProgram env i c).Each RequestFrame := by
  cases c with
  | decline dc =>
    refine Prog.each_bind ?_ fun _ => Prog.each_pure _
    exact Prog.each_bind (requestFrame_quiet (quiet_pendingRequest _ _)) fun _ =>
      requestFrame_update _ _
  | pay pc =>
    refine Prog.each_bind ?_ fun _ => Prog.each_pure _
    refine Prog.each_bind (requestFrame_quiet (quiet_pendingRequest _ _)) fun row => ?_
    split
    · exact Prog.each_bind (requestFrame_update _ _) fun _ => Prog.each_throw _
    · refine Prog.each_bind (requestFrame_quiet (quiet_query _)) fun account => ?_
      cases account with
      | none => exact Prog.each_throw _
      | some account =>
        have hconfined : Confined [] [pc.pendingTxId] (initiate env i (payment pc row account.1)) :=
          initiate_confined env _ (List.mem_singleton.2 rfl)
        have hinit : (initiate env i (payment pc row account.1)).Each RequestFrame :=
          Prog.Each.imp hconfined fun w w' h => .inl ⟨_, h⟩
        exact Prog.each_bind hinit fun _ => Prog.each_bind (requestFrame_update _ _) fun _ =>
          Prog.each_pure _

end Frame

/-- A request with the columns that calls change set to what they are at first. -/
def PaymentRequest.terms (row : PaymentRequest) : PaymentRequest :=
  { row with status := .pending, paidAt := none, paidTransferId := none }

/-- What a step does, in three ways: nothing, a transfer, or a mark on its request. -/
inductive RequestStep (env : Env) (h : List World) (db db' : Db) (c : RequestCall) : Prop
  | quiet (hdb : db' = db)
  | debited {pc : PayCall} {row : PaymentRequest} {toAccountId : Uuid} {t : Transfer}
      (hc : c = .pay pc) (hseen : RequestSeen h pc.requestId row)
      (hpayer : row.payerUserId = some pc.userId)
      (hto : OwnerSeen h toAccountId row.requesterUserId)
      (hfrom : OwnerSeen h pc.fromAccountId pc.userId)
      (hadmitted : Admitted env (payment pc row toAccountId) t)
      (hdirected : t.toAccountId = some toAccountId)
      (hcreated : Table.Created pc.transferId t db.transfers db'.transfers)
      (hrequests : db'.paymentRequests = db.paymentRequests)
      (howners : ∀ a, (db'.accounts.lookup a).map Account.userId =
        (db.accounts.lookup a).map Account.userId)
  | stamped {f : PaymentRequest → PaymentRequest} (hstamped : RequestStamped c.requestId f db db')
      (hterms : ∀ row, (f row).terms = row.terms)
      (hf : (∀ row, (f row).status = .declined ∨ (f row).status = .expired) ∨
        ∃ pc id t, c = .pay pc ∧ Seen h id t ∧ t.idempotencyKey = pc.idempotencyKey ∧
          f = stampPaid pc.now id)

section Steps

variable {env : Env} {h : List World} {w w' : World} {c : RequestCall}

theorem requestStep_of_change (hchange : RequestChange env h w.db w'.db c)
    (hframe : RequestFrame w w') : RequestStep env h w.db w'.db c := by
  cases hchange with
  | quiet hdb => exact .quiet hdb
  | @debited pc row toAccountId t hseen hpayer hto hfrom hadmitted hdirected hinit =>
    have hcreated : Table.Created pc.transferId t w.db.transfers w'.db.transfers :=
      hinit.transfers
    rcases hframe with ⟨made, hframed⟩ | ⟨T, hdb⟩
    · exact .debited rfl hseen hpayer hto hfrom hadmitted hdirected hcreated
        hframed.paymentRequests hframed.userId
    · have hlookup := hcreated.lookup pc.transferId
      rw [if_pos rfl, hdb] at hlookup
      have hnone := hcreated.1
      rw [hlookup] at hnone
      cases hnone
  | @paid pc id t hseen hkey hstamped =>
    exact .stamped hstamped (fun _ => rfl) (.inr ⟨pc, id, t, rfl, hseen, hkey, rfl⟩)
  | expired hstamped => exact .stamped hstamped (fun _ => rfl) (.inl fun _ => .inr rfl)
  | declined hstamped => exact .stamped hstamped (fun _ => rfl) (.inl fun _ => .inl rfl)

variable {db db' : Db}

theorem requestStamped_lookup {r : Uuid} {f : PaymentRequest → PaymentRequest}
    (hs : RequestStamped r f db db') (r' : Uuid) : db'.paymentRequests.lookup r' =
      if r' = r then (db.paymentRequests.lookup r').map f else db.paymentRequests.lookup r' := by
  obtain ⟨T, rfl, hT⟩ := hs
  exact hT.lookup r'

/-- A request stays, with its terms. -/
theorem RequestStep.request (hstep : RequestStep env h db db' c) {r : Uuid} {row : PaymentRequest}
    (hrow : db.paymentRequests.lookup r = some row) :
    ∃ row', db'.paymentRequests.lookup r = some row' ∧ row'.terms = row.terms := by
  cases hstep with
  | quiet hdb =>
    rw [hdb]
    exact ⟨row, hrow, rfl⟩
  | debited _ _ _ _ _ _ _ _ hrequests _ =>
    rw [hrequests]
    exact ⟨row, hrow, rfl⟩
  | @stamped f hstamped hterms _ =>
    rw [requestStamped_lookup hstamped, hrow]
    split
    · exact ⟨f row, rfl, hterms row⟩
    · exact ⟨row, rfl, rfl⟩

/-- A transfer stays as it is. -/
theorem RequestStep.transfer (hstep : RequestStep env h db db' c) {id : Uuid} {t : Transfer}
    (ht : db.transfers.lookup id = some t) : db'.transfers.lookup id = some t := by
  cases hstep with
  | quiet hdb =>
    rw [hdb]
    exact ht
  | debited _ _ _ _ _ _ _ hcreated _ _ => exact hcreated.lookup_old ht
  | stamped hstamped _ _ =>
    obtain ⟨T, rfl, -⟩ := hstamped
    exact ht

theorem RequestStep.userId (hstep : RequestStep env h db db' c) (a : Uuid) :
    (db'.accounts.lookup a).map Account.userId = (db.accounts.lookup a).map Account.userId := by
  cases hstep with
  | quiet hdb => rw [hdb]
  | debited _ _ _ _ _ _ _ _ _ howners => exact howners a
  | stamped hstamped _ _ =>
    obtain ⟨T, rfl, -⟩ := hstamped
    rfl

/-- What is seen of requests and transfers tells the truth about those there are, and accounts do
not change hands. -/
structure Truthful (h : List World) : Prop where
  requests : ∀ w past, h = w :: past → ∀ r row, RequestSeen h r row →
    ∃ row', w.db.paymentRequests.lookup r = some row' ∧ row'.terms = row.terms
  transfers : ∀ w past, h = w :: past → ∀ id t, Seen h id t →
    w.db.transfers.lookup id = some t
  owners : SameOwners h

theorem truthful_start (w : World) : Truthful [w] := by
  refine ⟨?_, ?_, sameOwners_start w⟩
  · rintro w' past hw r row ⟨w₁, hw₁, hrow⟩
    cases hw
    rw [List.mem_singleton.1 hw₁] at hrow
    exact ⟨row, hrow, rfl⟩
  · rintro w' past hw id t ⟨w₁, hw₁, ht⟩
    cases hw
    rw [List.mem_singleton.1 hw₁] at ht
    exact ht

theorem Truthful.step {past : List World} (htrue : Truthful (w :: past))
    (hstep : RequestStep env (w :: past) w.db w'.db c) : Truthful (w' :: w :: past) := by
  refine ⟨?_, ?_, htrue.owners.step hstep.userId⟩
  · rintro v past' hv r row ⟨w₁, hw₁, hrow⟩
    cases hv
    rcases List.mem_cons.1 hw₁ with rfl | hw₁
    · exact ⟨row, hrow, rfl⟩
    · obtain ⟨row₁, hrow₁, hterms₁⟩ := htrue.requests w past rfl r row ⟨w₁, hw₁, hrow⟩
      obtain ⟨row₂, hrow₂, hterms₂⟩ := hstep.request hrow₁
      exact ⟨row₂, hrow₂, hterms₂.trans hterms₁⟩
  · rintro v past' hv id t ⟨w₁, hw₁, ht⟩
    cases hv
    rcases List.mem_cons.1 hw₁ with rfl | hw₁
    · exact ht
    · exact hstep.transfer (htrue.transfers w past rfl id t ⟨w₁, hw₁, ht⟩)

/-- The columns that say what was asked for are among the terms. -/
theorem bill_of_terms {row row' : PaymentRequest} (hterms : row'.terms = row.terms) :
    row'.amountCents = row.amountCents ∧ row'.payerUserId = row.payerUserId ∧
      row'.requesterUserId = row.requesterUserId := by
  have hcolumn : ∀ {β : Type} (f : PaymentRequest → β), (∀ row, f row.terms = f row) →
      f row' = f row := by
    intro β f hf
    rw [← hf row', hterms, hf row]
  exact ⟨hcolumn _ fun _ => rfl, hcolumn _ fun _ => rfl, hcolumn _ fun _ => rfl⟩

/-- What backs a request goes on backing it. -/
theorem Backs.step {row row' : PaymentRequest} {t : Transfer} (hbacks : Backs db row t)
    (hstep : RequestStep env h db db' c) (hterms : row'.terms = row.terms) :
    Backs db' row' t := by
  obtain ⟨hamount, hpayer, hrequester⟩ := bill_of_terms hterms
  have haccount : ∀ {a : Uuid} {acct : Account}, db.accounts.lookup a = some acct →
      ∃ acct', db'.accounts.lookup a = some acct' ∧ acct'.userId = acct.userId := by
    intro a acct hacct
    have hmap := hstep.userId a
    rw [hacct, Option.map_some] at hmap
    exact Option.map_eq_some_iff.1 hmap
  obtain ⟨acct, hacct, howner⟩ := hbacks.from_
  obtain ⟨acct', hacct', huser⟩ := haccount hacct
  obtain ⟨a, toAcct, ha, htoAcct, htoOwner⟩ := hbacks.to_
  obtain ⟨toAcct', htoAcct', htoUser⟩ := haccount htoAcct
  refine ⟨hbacks.kind, hamount ▸ hbacks.amount, hpayer ▸ hbacks.payer, ⟨acct', hacct', ?_⟩,
    a, toAcct', ha, htoAcct', ?_⟩
  · rw [hpayer, huser]
    exact howner
  · rw [hrequester, htoUser]
    exact htoOwner

/-- The transfer that a payment makes backs its request. -/
theorem backs_new {past : List World} {pc : PayCall} {row row' : PaymentRequest}
    {toAccountId : Uuid} {t : Transfer} (hsame : SameOwners (w :: past))
    (hpayer : row.payerUserId = some pc.userId)
    (hto : OwnerSeen (w :: past) toAccountId row.requesterUserId)
    (hfrom : OwnerSeen (w :: past) pc.fromAccountId pc.userId)
    (hadmitted : Admitted env (payment pc row toAccountId) t)
    (hdirected : t.toAccountId = some toAccountId)
    (hterms : row'.terms = row.terms) : Backs w.db row' t := by
  obtain ⟨hamount, hpayer', hrequester⟩ := bill_of_terms hterms
  obtain ⟨s, fx, toAccount, hs, -, ht⟩ := hadmitted.row
  have hsettlement : s = row.amountCents := by
    simp only [resolveSettlement, payment, pure, Except.pure, Except.ok.injEq,
      Prod.mk.injEq] at hs
    exact hs.1.symm
  have hsource : t.fromAccountId = pc.fromAccountId := by rw [ht]; rfl
  have huser : t.initiatedByUserId = pc.userId := by rw [ht]; rfl
  obtain ⟨acct, hacct, howner⟩ := hsame.owner hfrom
  obtain ⟨toAcct, htoAcct, htoOwner⟩ := hsame.owner hto
  refine ⟨by rw [ht]; rfl, ?_, ?_, ⟨acct, ?_, ?_⟩, toAccountId, toAcct, hdirected, htoAcct, ?_⟩
  · rw [ht, hamount, ← hsettlement]
    rfl
  · rw [hpayer', hpayer, huser]
  · rw [hsource]
    exact hacct
  · rw [hpayer', hpayer, howner]
  · rw [htoOwner, hrequester]

end Steps

/-! ## Requests and transfers over a run -/

/-- What a run keeps. -/
structure Accounted (tr : List (Step World RequestCall)) (db : Db) : Prop where
  made : ∀ r id, MadeFor tr r id → ∃ row t, db.paymentRequests.lookup r = some row ∧
    db.transfers.lookup id = some t ∧ Backs db row t
  owner : ∀ r r' id, MadeFor tr r id → MadeFor tr r' id → r = r'
  once : ∀ r, AtMostOnce (fun x => ∃ id, Makes r id x) tr
  paid : ∀ r row, db.paymentRequests.lookup r = some row → row.status = .paid →
    ∃ id, row.paidTransferId = some id ∧ MadeFor tr r id
  refused : ∀ r, Refused db r → ∀ id, ¬ MadeFor tr r id
  stays : ∀ x ∈ tr, ∀ r, Refused x.pre.db r → x.post.db.requestStatus r ≠ some .paid

section Accounted

variable {env : Env} {earlier : List (Step World RequestCall)} {x : Step World RequestCall}
  {past : List World}

/-- A step that makes a transfer leaves the requests, and the transfer backs its request. -/
theorem makes_backs (htrue : Truthful (x.pre :: past))
    (hstep : RequestStep env (x.pre :: past) x.pre.db x.post.db x.call) {r id : Uuid}
    (hmakes : Makes r id x) : x.post.db.paymentRequests = x.pre.db.paymentRequests ∧
      ∃ row t, x.post.db.paymentRequests.lookup r = some row ∧
        x.post.db.transfers.lookup id = some t ∧ Backs x.post.db row t := by
  have hsame := htrue.owners.step hstep.userId
  obtain ⟨c, hc, rfl, rfl, hnone, hsome⟩ := makes_iff.1 hmakes
  cases hstep with
  | quiet hdb =>
    rw [hdb, hnone] at hsome
    cases hsome
  | @debited pc row toAccountId t hpc hseen hpayer hto hfrom hadmitted hdirected hcreated
      hrequests _ =>
    obtain rfl : c = pc := RequestCall.pay.inj (hc.symm.trans hpc)
    obtain ⟨row', hrow', hterms⟩ := htrue.requests _ _ rfl _ row hseen
    have ht := hcreated.lookup c.transferId
    rw [if_pos rfl] at ht
    have hold : ∀ v ∈ x.pre :: past, v ∈ x.post :: x.pre :: past :=
      fun v hv => List.mem_cons_of_mem _ hv
    refine ⟨hrequests, row', t, by rw [hrequests]; exact hrow', ht, ?_⟩
    exact backs_new hsame hpayer (hto.mono hold) (hfrom.mono hold) hadmitted hdirected hterms
  | stamped hstamped _ _ =>
    obtain ⟨T, hdb, -⟩ := hstamped
    rw [hdb, hnone] at hsome
    cases hsome

theorem madeFor_cons {r id : Uuid} (h : MadeFor (x :: earlier) r id) :
    Makes r id x ∨ MadeFor earlier r id := by
  obtain ⟨y, hy, hmakes⟩ := h
  rcases List.mem_cons.1 hy with rfl | hy
  · exact .inl hmakes
  · exact .inr ⟨y, hy, hmakes⟩

theorem MadeFor.cons {r id : Uuid} (h : MadeFor earlier r id) : MadeFor (x :: earlier) r id := by
  obtain ⟨y, hy, hmakes⟩ := h
  exact ⟨y, List.mem_cons_of_mem _ hy, hmakes⟩

/-- A transfer that is made was not made before. -/
theorem Accounted.not_made (hacc : Accounted earlier x.pre.db) {r r' id : Uuid}
    (hmakes : Makes r id x) : ¬ MadeFor earlier r' id := by
  intro hmade
  obtain ⟨row, t, -, ht, -⟩ := hacc.made r' id hmade
  obtain ⟨c, -, -, -, hnone, -⟩ := makes_iff.1 hmakes
  rw [hnone] at ht
  cases ht

/-- The request that a step does not write is as it was. -/
theorem request_of_not_written {r : Uuid} (h : ¬ WritesRequest r x) :
    x.post.db.paymentRequests.lookup r = x.pre.db.paymentRequests.lookup r := not_not.1 h

theorem requestStatus_of_lookup {db db' : Db} {r : Uuid}
    (h : db'.paymentRequests.lookup r = db.paymentRequests.lookup r) :
    db'.requestStatus r = db.requestStatus r := by
  rw [Db.requestStatus, h, Db.requestStatus]

theorem refused_of_lookup {db db' : Db} {r : Uuid}
    (h : db'.paymentRequests.lookup r = db.paymentRequests.lookup r) :
    Refused db' r ↔ Refused db r := by
  rw [Refused, Refused, requestStatus_of_lookup h]

/-- What writes a request marks it, as paid by a transfer under the key of the call or as
refused. -/
theorem written_cases (hstep : RequestStep env (x.pre :: past) x.pre.db x.post.db x.call)
    {r : Uuid} (hwrites : WritesRequest r x) : r = x.call.requestId ∧
      (Refused x.post.db r ∨ ∃ pc id t row, x.call = .pay pc ∧ Seen (x.pre :: past) id t ∧
        t.idempotencyKey = pc.idempotencyKey ∧ x.post.db.paymentRequests.lookup r = some row ∧
        row.status = .paid ∧ row.paidTransferId = some id) := by
  cases hstep with
  | quiet hdb => exact absurd (by rw [hdb]) hwrites
  | debited _ _ _ _ _ _ _ _ hrequests _ => exact absurd (by rw [hrequests]) hwrites
  | @stamped f hstamped _ hf =>
    have hlookup := requestStamped_lookup hstamped r
    by_cases hr : r = x.call.requestId
    · refine ⟨hr, ?_⟩
      rw [if_pos hr] at hlookup
      cases hrow : x.pre.db.paymentRequests.lookup r with
      | none =>
        rw [hrow] at hlookup
        exact absurd (hlookup.trans hrow.symm) hwrites
      | some row =>
        rw [hrow, Option.map_some] at hlookup
        rcases hf with hrefuses | ⟨pc, id, t, hc, hseen, hkey, rfl⟩
        · left
          rw [Refused, Db.requestStatus, hlookup, Option.map_some, Option.some.injEq,
            Option.some.injEq]
          exact hrefuses row
        · exact .inr ⟨pc, id, t, _, hc, hseen, hkey, hlookup, rfl, rfl⟩
    · rw [if_neg hr] at hlookup
      exact absurd hlookup hwrites

/-- A request that is marked refused is not marked paid. -/
theorem status_of_refused {db : Db} {r : Uuid} (h : Refused db r) :
    db.requestStatus r ≠ some .paid := by
  rcases h with h | h <;> rw [h] <;> decide

/-- A transfer is made for one request. -/
theorem Accounted.owner_step (hacc : Accounted earlier x.pre.db) {r r' id : Uuid}
    (hmade : MadeFor (x :: earlier) r id) (hmade' : MadeFor (x :: earlier) r' id) : r = r' := by
  rcases madeFor_cons hmade with hmakes | hmade
  · rcases madeFor_cons hmade' with hmakes' | hmade'
    · exact (Prod.mk.inj (Option.some.inj (hmakes.symm.trans hmakes'))).1
    · exact absurd hmade' (hacc.not_made hmakes)
  · rcases madeFor_cons hmade' with hmakes' | hmade'
    · exact absurd hmade (hacc.not_made hmakes')
    · exact hacc.owner r r' id hmade hmade'

/-- A request that is marked paid is marked with a transfer made for it. -/
theorem Accounted.paid_step (hacc : Accounted earlier x.pre.db)
    (htrue : Truthful (x.pre :: past))
    (hstep : RequestStep env (x.pre :: past) x.pre.db x.post.db x.call)
    (horderly : Orderly earlier x) {r : Uuid} {row : PaymentRequest}
    (hrow : x.post.db.paymentRequests.lookup r = some row) (hpaid : row.status = .paid) :
    ∃ id, row.paidTransferId = some id ∧ MadeFor (x :: earlier) r id := by
  by_cases hwrites : WritesRequest r x
  · obtain ⟨rfl, hrefused | ⟨pc, id, t, row', hc, hseen, hkey, hrow', -, hid⟩⟩ :=
      written_cases hstep hwrites
    · have hstatus := status_of_refused hrefused
      rw [Db.requestStatus, hrow, Option.map_some, hpaid] at hstatus
      exact absurd rfl hstatus
    · obtain rfl := Option.some.inj (hrow.symm.trans hrow')
      have hstatus : x.post.db.requestStatus x.call.requestId = some .paid := by
        rw [Db.requestStatus, hrow, Option.map_some, hpaid]
      have hentry : (⟨id, t⟩ : Sigma fun _ : Uuid => Transfer) ∈ x.pre.db.transfers.entries :=
        AList.mem_lookup_iff.1 (htrue.transfers _ _ rfl id t hseen)
      have hmade := (horderly.pays hwrites hstatus).2 _ hentry (by rw [hc, hkey]; rfl)
      exact ⟨id, hid, hmade.cons⟩
  · rw [request_of_not_written hwrites] at hrow
    obtain ⟨id, hid, hmade⟩ := hacc.paid r row hrow hpaid
    exact ⟨id, hid, hmade.cons⟩

/-- No transfer is made for a request that is refused. -/
theorem Accounted.refused_step (hacc : Accounted earlier x.pre.db)
    (htrue : Truthful (x.pre :: past))
    (hstep : RequestStep env (x.pre :: past) x.pre.db x.post.db x.call)
    (horderly : Orderly earlier x) {r : Uuid} (hrefused : Refused x.post.db r) (id : Uuid) :
    ¬ MadeFor (x :: earlier) r id := by
  intro hmade
  rcases madeFor_cons hmade with hmakes | hmade
  · -- the step makes a transfer, so it leaves the request, which it finds pending
    have hsame : x.post.db.paymentRequests.lookup r = x.pre.db.paymentRequests.lookup r := by
      rw [(makes_backs htrue hstep hmakes).1]
    rw [refused_of_lookup hsame] at hrefused
    have hpending := (horderly.makes _ hmakes).1
    rcases hrefused with h | h <;> rw [hpending] at h <;> cases h
  · by_cases hwrites : WritesRequest r x
    · obtain ⟨rfl, -⟩ := written_cases hstep hwrites
      exact noneMade_iff.1 (horderly.refuses hwrites hrefused) id hmade
    · rw [refused_of_lookup (request_of_not_written hwrites)] at hrefused
      exact hacc.refused r hrefused id hmade

/-- A request that is refused is not marked paid. -/
theorem not_paid_of_refused (hstep : RequestStep env (x.pre :: past) x.pre.db x.post.db x.call)
    (horderly : Orderly earlier x) {r : Uuid} (hrefused : Refused x.pre.db r) :
    x.post.db.requestStatus r ≠ some .paid := by
  intro hpaid
  have hwrites : WritesRequest r x := by
    intro hsame
    rw [requestStatus_of_lookup hsame] at hpaid
    exact status_of_refused hrefused hpaid
  obtain ⟨rfl, -⟩ := written_cases hstep hwrites
  exact (horderly.pays hwrites hpaid).1 hrefused

/-- A step that finds its request as it should be keeps what a run keeps. -/
theorem Accounted.step (hacc : Accounted earlier x.pre.db) (htrue : Truthful (x.pre :: past))
    (hstep : RequestStep env (x.pre :: past) x.pre.db x.post.db x.call)
    (horderly : Orderly earlier x) : Accounted (x :: earlier) x.post.db where
  made := by
    intro r id hmade
    rcases madeFor_cons hmade with hmakes | hmade
    · exact (makes_backs htrue hstep hmakes).2
    · obtain ⟨row, t, hrow, ht, hbacks⟩ := hacc.made r id hmade
      obtain ⟨row', hrow', hterms⟩ := hstep.request hrow
      exact ⟨row', t, hrow', hstep.transfer ht, hbacks.step hstep hterms⟩
  owner := fun _ _ _ => hacc.owner_step
  once := by
    intro r
    refine (hacc.once r).cons ?_
    rintro ⟨id, hmakes⟩ y hy ⟨id', hmakes'⟩
    exact noneMade_iff.1 (horderly.makes _ hmakes).2 id' ⟨y, hy, hmakes'⟩
  paid := fun _ _ => hacc.paid_step htrue hstep horderly
  refused := fun _ => hacc.refused_step htrue hstep horderly
  stays := by
    intro y hy r hrefused
    rcases List.mem_cons.1 hy with rfl | hy
    · exact not_paid_of_refused hstep horderly hrefused
    · exact hacc.stays y hy r hrefused

theorem accounted_start {db : Db}
    (hstart : ∀ r row, db.paymentRequests.lookup r = some row → row.status ≠ .paid) :
    Accounted [] db := by
  have hnone : ∀ {r id : Uuid}, ¬ MadeFor [] r id := by
    rintro r id ⟨x, hx, -⟩
    cases hx
  refine ⟨fun _ _ h => absurd h hnone, fun _ _ _ h => absurd h hnone, fun _ => .nil, ?_,
    fun _ _ _ => hnone, fun _ hx => absurd hx (by simp)⟩
  intro r row hrow hpaid
  exact absurd hpaid (hstart r row hrow)

theorem Accounted.sound {tr : List (Step World RequestCall)} {db : Db} (hacc : Accounted tr db) :
    RequestsSound tr db := by
  refine ⟨?_, ?_, hacc.once, hacc.refused, hacc.stays⟩
  · intro r row hrow hpaid
    obtain ⟨id, hid, hmade⟩ := hacc.paid r row hrow hpaid
    obtain ⟨row', t, hrow', ht, hbacks⟩ := hacc.made r id hmade
    obtain rfl := Option.some.inj (hrow.symm.trans hrow')
    refine ⟨id, t, hid, hmade, fun id' hmade' => ?_, ht, hbacks⟩
    obtain ⟨x, hx, hmakes⟩ := hmade
    obtain ⟨y, hy, hmakes'⟩ := hmade'
    obtain rfl := (hacc.once r).eq hx hy ⟨id, hmakes⟩ ⟨id', hmakes'⟩
    exact (Prod.mk.inj (Option.some.inj (hmakes'.symm.trans hmakes))).2
  · intro r r' row row' hrow hrow' hpaid hpaid' heq
    obtain ⟨id, hid, hmade⟩ := hacc.paid r row hrow hpaid
    obtain ⟨id', hid', hmade'⟩ := hacc.paid r' row' hrow' hpaid'
    rw [hid, hid', Option.some.injEq] at heq
    rw [← heq] at hmade'
    exact hacc.owner r r' id hmade hmade'

end Accounted

/-- Bob asks Ann for 20.00 and for 50.00. -/
def sampleRequested : World :=
  { sampleWorld with db := { sampleDb with
    paymentRequests := ((∅ : Table Uuid PaymentRequest).insert 60
      ⟨2, some 1, 2000, "lunch", .pending, 100, none, none⟩).insert 61
      ⟨2, some 1, 5000, "rent", .pending, 100, none, none⟩ } }

theorem sampleRequested_unpaid (r : Uuid) (row : PaymentRequest)
    (hrow : sampleRequested.db.paymentRequests.lookup r = some row) : row.status ≠ .paid := by
  simp only [sampleRequested, Table.lookup_insert_ite] at hrow
  split at hrow
  · cases hrow
    decide
  · split at hrow
    · cases hrow
      decide
    · cases hrow

/-- Ann pays request `r` as transfer `id`. -/
def samplePayRequest (r id : Uuid) (idempotencyKey : String) : RequestCall :=
  .pay ⟨1, r, idempotencyKey, 10, fun _ _ => .error (.badRequest "no rate"), id, id + 1, 0, true⟩

/-- Ann pays one request, then the other, under the keys given, and declines the second. -/
def sampleRequests (key key' : String) : List (Choice RequestCall) :=
  .call (samplePayRequest 60 100 key) :: List.replicate 20 (.step 0) ++
    .call (samplePayRequest 61 110 key') :: List.replicate 20 (.step 1) ++
      .call (.decline ⟨1, 61⟩) :: List.replicate 4 (.step 2)

end BankDemo
