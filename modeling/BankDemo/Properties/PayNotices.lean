import BankDemo.Pay.Service
import BankDemo.Properties.Pricing
import BankDemo.System.Frame

/-!
# Notices of payments

The notice and the description of a payment are made from the request, and the transfer is the one
that is under the key. The two agree as long as no key is used again (`notices_truthful`): a payment
that is repeated is announced again, and one that is changed is announced as it was never made.
-/

namespace BankDemo.Pay

open Transfers Notifications

/-! ## What payments keep -/

/-- Customers and the owners of accounts stay, and so do the transfers there are. -/
structure Onward (db db' : Db) : Prop where
  users : db'.users = db.users
  owner : ∀ a, (db'.accounts.lookup a).map Account.userId = (db.accounts.lookup a).map Account.userId
  transfers : ∀ id t, db.transfers.lookup id = some t → db'.transfers.lookup id = some t

theorem Onward.refl (db : Db) : Onward db db := ⟨rfl, fun _ => rfl, fun _ _ h => h⟩

theorem Onward.trans {db₁ db₂ db₃ : Db} (h : Onward db₁ db₂) (h' : Onward db₂ db₃) :
    Onward db₁ db₃ :=
  ⟨h'.users.trans h.users, fun a => (h'.owner a).trans (h.owner a),
    fun id t ht => h'.transfers id t (h.transfers id t ht)⟩

section Bank

variable {env : PayEnv} {i : ℕ} {c : PayCall} {w w' : World} {recipient : Uuid × User}

theorem initiate_onward (env : Env) (ic : InitiateCall) (w : World) :
    Onward w.db ((initiate env i ic).run w).2.db := by
  have hframe : Framed [] [ic.pendingTxId] w.db ((initiate env i ic).run w).2.db :=
    (initiate_confined env ic List.mem_cons_self).run (fun w => .refl w.db) Framed.trans w
  refine ⟨hframe.column Db.users fun _ => rfl, hframe.userId, fun id t ht => ?_⟩
  rcases initiate_leaves ic w with h | ⟨t', -, -, h⟩
  · rw [h]
    exact ht
  · exact h.transfers.lookup_old ht

theorem reads_ite {α : Type} {b : Prop} [Decidable b] {p q : Service α} (hp : Reads p)
    (hq : Reads q) : Reads (if b then p else q) := by
  split
  · exact hp
  · exact hq

theorem reads_resolveByContact (env : PayEnv) (raw : String) : Reads (resolveByContact env raw) := by
  unfold resolveByContact
  simp only
  generalize JsString.digits raw = digits
  refine reads_ite (reads_bind (reads_query _) fun byEmail => ?_)
    (reads_bind (reads_pure _) fun byEmail => ?_)
  all_goals
    cases byEmail with
    | some found => exact reads_pure found
    | none =>
      refine reads_ite (reads_bind (reads_query _) fun byPhone => ?_)
        (reads_bind (reads_pure _) fun byPhone => ?_)
      all_goals
        cases byPhone with
        | some found => exact reads_pure found
        | none => exact reads_throw _

theorem reads_resolveRecipient (env : PayEnv) (handleOrId : String) :
    Reads (resolveRecipient env handleOrId) := by
  unfold resolveRecipient
  generalize JsString.trim handleOrId = raw
  simp only
  split
  · exact reads_throw _
  · cases env.parseUuid raw with
    | some id =>
      refine reads_bind (reads_query _) fun byId => ?_
      cases byId with
      | some found => exact reads_pure found
      | none =>
        refine reads_bind (reads_query _) fun byTag => ?_
        cases byTag with
        | some found => exact reads_pure found
        | none => exact reads_resolveByContact env raw
    | none =>
      refine reads_bind (reads_pure _) fun byId => ?_
      cases byId with
      | some found => exact reads_pure found
      | none =>
        refine reads_bind (reads_query _) fun byTag => ?_
        cases byTag with
        | some found => exact reads_pure found
        | none => exact reads_resolveByContact env raw

/-- The outcome, if there is one, is the row of a customer. -/
def IsCustomer (db : Db) (r : Except Error (Uuid × User)) : Prop :=
  ∀ u, r = .ok u → db.users.lookup u.1 = some u.2

theorem isCustomer_throw {e : Error} : (throw e : Service (Uuid × User)).Ensures w fun r _ =>
    IsCustomer w.db r := by
  refine Prog.ensures_throw fun u h => ?_
  cases h

theorem isCustomer_found {p : User → Bool} {q : Service (Uuid × User)}
    (hq : q.Ensures w fun r _ => IsCustomer w.db r) :
    (match w.db.users.findRow p with | some found => pure found | none => q).Ensures w fun r _ =>
      IsCustomer w.db r := by
  cases hfound : w.db.users.findRow p with
  | none => exact hq
  | some found =>
    refine Prog.ensures_pure fun u h => ?_
    cases h
    exact (Table.findRow_some hfound).1

theorem ensures_ite {α : Type} {b : Prop} [Decidable b] {p q : Service α}
    {Q : Except Error α → World → Prop} (hp : p.Ensures w Q) (hq : q.Ensures w Q) :
    (if b then p else q).Ensures w Q := by
  split
  · exact hp
  · exact hq

theorem resolveByContact_customer (env : PayEnv) (raw : String) :
    (resolveByContact env raw).Ensures w fun r _ => IsCustomer w.db r := by
  unfold resolveByContact
  simp only
  generalize JsString.digits raw = digits
  exact ensures_ite
    (ensures_query (isCustomer_found (ensures_ite (ensures_query (isCustomer_found isCustomer_throw))
      isCustomer_throw)))
    (ensures_ite (ensures_query (isCustomer_found isCustomer_throw)) isCustomer_throw)

theorem resolveRecipient_customer (env : PayEnv) (handleOrId : String) :
    (resolveRecipient env handleOrId).Ensures w fun r _ => IsCustomer w.db r := by
  unfold resolveRecipient
  generalize JsString.trim handleOrId = raw
  have htag : (query (fun db => db.users.findRow fun u => u.novaTag = some (tagOf raw)) >>= fun x =>
      (match x with
        | some found => pure found
        | none => resolveByContact env raw : Service (Uuid × User))).Ensures w fun r _ =>
        IsCustomer w.db r :=
    ensures_query (isCustomer_found (resolveByContact_customer env raw))
  simp only
  refine ensures_ite isCustomer_throw ?_
  cases env.parseUuid raw with
  | none => exact htag
  | some id =>
    refine ensures_query ?_
    cases hid : w.db.users.lookup id with
    | none => exact htag
    | some u =>
      refine Prog.ensures_pure fun u' h => ?_
      cases h
      exact hid

/-- The description is written on the pending row, if it is there, and nowhere else. -/
theorem describePayment_run (pendingTxId : Option Uuid) (name : String) (w : World) :
    ∃ T, (describePayment i pendingTxId name).run w =
      (.ok (), { w with db := { w.db with transactions := T } }) ∧
      ∀ p row, pendingTxId = some p → name ≠ "" → w.db.transactions.lookup p = some row →
        T = w.db.transactions.insert p { row with description := "Transfer to " ++ name } := by
  unfold describePayment
  cases pendingTxId with
  | none => exact ⟨_, rfl, fun p row h => by cases h⟩
  | some id =>
    simp only
    split
    · rename_i hempty
      exact ⟨_, rfl, fun p row _ hname => absurd hempty hname⟩
    · rw [Prog.run_tryCatch, run_transaction]
      cases hb : Tx.updateTransaction id _ w.db with
      | error e =>
        refine ⟨_, rfl, fun p row hp _ hrow => ?_⟩
        obtain rfl := Option.some.inj hp
        rw [Tx.updateTransaction, hrow] at hb
        cases hb
      | ok r =>
        obtain ⟨row, hrow, hr⟩ := Tx.updateTransaction_ok hb
        obtain ⟨u, db⟩ := r
        subst hr
        refine ⟨_, rfl, fun p row' hp _ hrow' => ?_⟩
        obtain rfl := Option.some.inj hp
        rw [hrow] at hrow'
        obtain rfl := Option.some.inj hrow'
        rfl

theorem paySelf_onward (env : PayEnv) (c : PayCall) (w : World) :
    Onward w.db ((paySelf env i c).run w).2.db := by
  unfold paySelf
  rw [run_query_bind]
  cases w.db.findActive c.senderUserId .savings with
  | none => exact .refl w.db
  | some savings =>
    simp only
    split
    · exact .refl w.db
    · exact initiate_onward _ _ w

/-- A payment to another person that goes through is a transfer to an account of theirs. -/
theorem payOther_ok {res : InitiateResult} (h : (payOther env i c recipient).run w = (.ok res, w')) :
    ∃ to_ w₁ T, (w.db.accounts.lookup to_).map Account.userId = some recipient.1 ∧
      (initiate env.toEnv i (payment c .p2p to_)).run w = (.ok res, w₁) ∧
      w' = { w₁ with db := { w₁.db with transactions := T } } ∧
      ∀ p row, res.pendingTransactionId = some p → senderName (some recipient.2) ≠ "" →
        w₁.db.transactions.lookup p = some row → T = w₁.db.transactions.insert p
          { row with description := "Transfer to " ++ senderName (some recipient.2) } := by
  unfold payOther at h
  rw [run_query_bind] at h
  cases hfound : w.db.findActive recipient.1 .checking with
  | none =>
    rw [hfound] at h
    cases h
  | some account =>
    rw [hfound] at h
    obtain ⟨res', w₁, hinit, h⟩ := Prog.run_bind_ok.1 h
    obtain ⟨T, hdescribe, hwritten⟩ := describePayment_run (i := i) res'.pendingTransactionId
      (senderName (some recipient.2)) w₁
    rw [Prog.run_bind, hdescribe] at h
    cases h
    obtain ⟨haccount, hp⟩ := Table.findRow_some hfound
    simp only [decide_eq_true_eq] at hp
    exact ⟨account.1, w₁, T, by rw [haccount, Option.map_some, hp.1], hinit, rfl, hwritten⟩

theorem payOther_error {e : Error} (h : (payOther env i c recipient).run w = (.error e, w')) :
    Onward w.db w'.db := by
  unfold payOther at h
  rw [run_query_bind] at h
  cases hfound : w.db.findActive recipient.1 .checking with
  | none =>
    rw [hfound] at h
    cases h
    exact .refl w.db
  | some account =>
    rw [hfound, Prog.run_bind] at h
    have honward := initiate_onward (i := i) env.toEnv (payment c .p2p account.1) w
    cases hinit : (initiate env.toEnv i (payment c .p2p account.1)).run w with
    | mk r w₁ =>
      rw [hinit] at h honward
      cases r with
      | error e =>
        cases h
        exact honward
      | ok res =>
        obtain ⟨T, hdescribe, -⟩ := describePayment_run (i := i) res.pendingTransactionId
          (senderName (some recipient.2)) w₁
        simp only [Prog.run_bind, hdescribe] at h
        cases h

end Bank

/-! ## What `initiate` answers -/

/-- Under a key that was not used, the answer is about the transfer that was made. -/
theorem initiate_answers (env : Env) (i : ℕ) (ic : InitiateCall) (w : World)
    (hkey : findByIdempotencyKey w.db ic.idempotencyKey = none) :
    (initiate env i ic).Ensures w fun r _ => ∀ res, r = .ok res →
      res.transferId = ic.transferId ∧ res.pendingTransactionId = some ic.pendingTxId := by
  have herr : ∀ e, ∀ res, (Except.error e : Except Error InitiateResult) = .ok res →
      res.transferId = ic.transferId ∧ res.pendingTransactionId = some ic.pendingTxId := by
    intro e res h
    cases h
  unfold initiate
  split
  · exact Prog.ensures_throw (herr _)
  · refine ensures_query ?_
    split
    · exact Prog.ensures_throw (herr _)
    · refine ensures_query ?_
      rw [hkey]
      refine Prog.ensures_last (fun p w₁ => ?_) herr
      simp only
      split
      · exact Prog.ensures_throw (herr _)
      · refine Prog.ensures_last (fun _ w₂ => ?_) herr
        refine Prog.ensures_last (fun a w₃ => ?_) herr
        refine Prog.ensures_last (fun toAccount w₄ => ?_) herr
        split
        · exact Prog.ensures_throw (herr _)
        · refine Prog.ensures_last (fun d w₅ => ?_) herr
          refine Prog.ensures_last (fun t w₆ => ?_) herr
          refine ensures_emit (Prog.ensures_last (fun _ w₇ => ?_) herr)
          refine Prog.ensures_pure fun res h => ?_
          cases h
          exact ⟨rfl, rfl⟩

/-! ## A payment to another person -/

/-- The transfer is to an account of the user. -/
def PaidTo (db : Db) (t : Transfer) (userId : Uuid) : Prop :=
  ∃ to_, t.toAccountId = some to_ ∧ (db.accounts.lookup to_).map Account.userId = some userId

theorem PaidTo.onward {db db' : Db} {t : Transfer} {userId : Uuid} (h : PaidTo db t userId)
    (honward : Onward db db') : PaidTo db' t userId := by
  obtain ⟨to_, hto, howner⟩ := h
  exact ⟨to_, hto, (honward.owner to_).trans howner⟩

/-- A payment made its transfer, as the request says, with a pending row that names the recipient. -/
structure Made (c : PayCall) (recipient : Uuid × User) (db db' : Db) : Prop where
  onward : Onward db db'
  fresh : db.transfers.lookup c.transferId = none
  transfer : ∃ t, db'.transfers.lookup c.transferId = some t ∧ PaidTo db' t recipient.1 ∧
    t.amountCents = c.amountCents ∧ t.pendingTransactionId = some c.pendingTxId
  described : senderName (some recipient.2) ≠ "" → ∃ row : Transaction,
    row.description = "Transfer to " ++ senderName (some recipient.2) ∧
    db'.transactions = db.transactions.insert c.pendingTxId row

theorem payOther_made {env : PayEnv} {i : ℕ} {c : PayCall} {w w' : World} {recipient : Uuid × User}
    {res : InitiateResult} (h : (payOther env i c recipient).run w = (.ok res, w'))
    (hfirst : ∀ id t, findByIdempotencyKey w.db c.idempotencyKey = some (id, t) →
      t.initiatedByUserId ≠ c.senderUserId) : Made c recipient w.db w'.db := by
  obtain ⟨to_, w₁, T, howner, hinit, rfl, hwritten⟩ := payOther_ok h
  have hanswers : Yields w (initiate env.toEnv i (payment c .p2p to_)) _ := initiate_yields _ w
  simp only [Yields, hinit] at hanswers
  have hkey : findByIdempotencyKey w.db c.idempotencyKey = none := by
    rcases hanswers with ⟨-, id, t, hfound, hsender⟩ | ⟨t, hadmitted, hinitiated⟩
    · exact absurd hsender (hfirst id t hfound)
    · obtain ⟨s, fx, toAccount, -, -, rfl⟩ := hadmitted.row
      exact hinitiated.fresh
  have hcreates : Yields w (initiate env.toEnv i (payment c .p2p to_)) _ := initiate_creates w hkey
  simp only [Yields, hinit] at hcreates
  obtain ⟨t, hadmitted, hto, hinitiated⟩ := hcreates
  obtain ⟨s, fx, toAccount, hs, -, hrow⟩ := hadmitted.row
  have hamount : c.amountCents = s := congrArg Prod.fst (Except.ok.inj hs)
  have hanswer := initiate_answers env.toEnv i (payment c .p2p to_) w hkey
  simp only [Prog.Ensures, hinit] at hanswer
  obtain ⟨-, hpending⟩ := hanswer res rfl
  have honward := initiate_onward (i := i) env.toEnv (payment c .p2p to_) w
  rw [hinit] at honward
  have honward' : Onward w.db { w₁.db with transactions := T } :=
    honward.trans ⟨rfl, fun _ => rfl, fun _ _ h => h⟩
  refine ⟨honward', hinitiated.transfers.1, ⟨t, ?_, ⟨to_, hto, ?_⟩, ?_, ?_⟩, fun hname => ?_⟩
  · exact (hinitiated.transfers.lookup c.transferId).trans (if_pos rfl)
  · exact (honward'.owner to_).trans howner
  · rw [hrow, hamount]
    rfl
  · rw [hrow]
    rfl
  · obtain ⟨row, -, -, -, -, hfeed⟩ := hinitiated.feed
    have hnew : w₁.db.transactions.lookup c.pendingTxId = some row := by
      rw [hfeed]
      exact AList.lookup_insert _
    refine ⟨{ row with description := "Transfer to " ++ senderName (some recipient.2) }, rfl, ?_⟩
    show T = _
    rw [hwritten _ row hpending hname hnew, hfeed]
    exact AList.insert_insert _

/-- The call pays the recipient, who is not the sender. -/
def PaysAnother (env : PayEnv) (c : PayCall) (w : World) (recipient : Uuid × User) : Prop :=
  ((resolveRecipient env c.recipientHandleOrId).run w).1 = .ok recipient ∧
    recipient.1 ≠ c.senderUserId

/-- What a call does to bank and notices: there is no notice, or another person was paid and told. -/
def Outcome (env : PayEnv) (i : ℕ) (c : PayNoticeCall) (s : Inboxes)
    (x : Except Error PayAnswer × Inboxes) : Prop :=
  (x.2.notifications = s.notifications ∧ Onward s.world.db x.2.world.db ∧
    ∀ a recipient, x.1 = .ok a → ¬ PaysAnother env c.toPayCall s.world recipient) ∨
  ∃ recipient res w', PaysAnother env c.toPayCall s.world recipient ∧
    (payOther env i c.toPayCall recipient).run s.world = (.ok res, w') ∧
    x = (.ok (payAnswer res recipient), { s with
      world := w'
      notifications := s.notifications ++ if c.inboxUp then
        [receivedNotice c.toPayCall (w'.db.users.lookup c.senderUserId) recipient.1] else [] })

theorem payAndNotify_outcome (env : PayEnv) (i : ℕ) (c : PayNoticeCall) (s : Inboxes) :
    Outcome env i c s ((payAndNotify env i c).run s) := by
  have hrefused : ∀ {e : Error}, Outcome env i c s (.error e, s) := fun {e} =>
    .inl ⟨rfl, .refl _, fun a recipient h => by cases h⟩
  unfold payAndNotify
  split
  · exact hrefused
  · rw [run_zoom_bind, (reads_resolveRecipient env c.recipientHandleOrId).run s.world]
    cases hresolve : ((resolveRecipient env c.recipientHandleOrId).run s.world).1 with
    | error e => exact hrefused
    | ok recipient =>
      simp only
      rw [run_zoom_bind, (reads_query _).run s.world]
      simp only [query, Prog.run_read]
      split
      · exact hrefused
      · split
        · rename_i hself
          have honward := paySelf_onward (i := i) env c.toPayCall s.world
          rw [run_zoom_bind]
          cases hpay : (paySelf env i c.toPayCall).run s.world with
          | mk r w' =>
            rw [hpay] at honward
            cases r with
            | error e => exact .inl ⟨rfl, honward, fun a recipient h => by cases h⟩
            | ok res =>
              refine .inl ⟨rfl, honward, fun a recipient' _ hpays => hpays.2 ?_⟩
              rw [← Except.ok.inj (hresolve.symm.trans hpays.1)]
              exact hself
        · rename_i hother
          rw [run_zoom_bind]
          cases hpay : (payOther env i c.toPayCall recipient).run s.world with
          | mk r w' =>
            cases r with
            | error e => exact .inl ⟨rfl, payOther_error hpay, fun a recipient h => by cases h⟩
            | ok res =>
              refine .inr ⟨recipient, res, w', ⟨hresolve, hother⟩, hpay, ?_⟩
              simp only
              rw [Prog.run_bind, notifyRecipient_run]
              cases c.inboxUp with
              | true => rfl
              | false => simp

/-! ## Runs -/

/-- The notice tells of the transfer: it is to an account of the user, and of the amount that is
told. -/
def Announces (db : Db) (n : Notification) (id : Uuid) : Prop :=
  ∃ t, db.transfers.lookup id = some t ∧ PaidTo db t n.userId ∧
    n.title = "You received " ++ formatCents t.amountCents

/-- The description of a row. -/
def description (s : Inboxes) (p : Uuid) : Option String :=
  (s.world.db.transactions.lookup p).map Transaction.description

/-- A payment to another person, who has a name to be called by, has gone through, and has left the
description `Transfer to name` on the row `p`, which was another before or not there. -/
def Describes (env : PayEnv) (x : Step Inboxes PayNoticeCall) (p : Uuid) (name : String) : Prop :=
  (∃ a recipient, ((payAndNotify env 0 x.call).run x.pre).1 = .ok a ∧
    PaysAnother env x.call.toPayCall x.pre.world recipient ∧ senderName (some recipient.2) ≠ "") ∧
  description x.post p = some ("Transfer to " ++ name) ∧ description x.pre p ≠ description x.post p

/-- The row `p` is the pending row of a transfer to an account of a customer of that name. -/
def NamesRecipient (db : Db) (p : Uuid) (name : String) : Prop :=
  ∃ id t userId u, db.transfers.lookup id = some t ∧ t.pendingTransactionId = some p ∧
    PaidTo db t userId ∧ db.users.lookup userId = some u ∧ senderName (some u) = name

/-- The notices that were written are each of a transfer of their own, and the descriptions that were
written name the recipients. -/
structure Truthful (env : PayEnv) (s₀ : Inboxes) (tr : List (Step Inboxes PayNoticeCall))
    (s : Inboxes) : Prop where
  notices : ∃ new ids, s.notifications = s₀.notifications ++ new ∧ ids.Nodup ∧
    (∀ id ∈ ids, s₀.world.db.transfers.lookup id = none) ∧
    List.Forall₂ (Announces s.world.db) new ids
  descriptions : ∀ x ∈ tr, ∀ p name, Describes env x p name → NamesRecipient s.world.db p name

/-- The call is no payment to another person under a key under which the sender has a transfer. -/
def FirstUse (env : PayEnv) (s : Inboxes) (c : PayNoticeCall) : Prop :=
  ∀ recipient, PaysAnother env c.toPayCall s.world recipient → ∀ id t,
    findByIdempotencyKey s.world.db c.idempotencyKey = some (id, t) →
    t.initiatedByUserId ≠ c.senderUserId

section Runs

variable {env : PayEnv} {s₀ s s' : Inboxes} {tr : List (Step Inboxes PayNoticeCall)}
  {c : PayNoticeCall}

theorem Announces.onward {db db' : Db} (honward : Onward db db') (n : Notification) (id : Uuid)
    (h : Announces db n id) : Announces db' n id := by
  obtain ⟨t, ht, hpaid, htitle⟩ := h
  exact ⟨t, honward.transfers id t ht, hpaid.onward honward, htitle⟩

theorem announced_there {db : Db} {new : List Notification} {ids : List Uuid}
    (h : List.Forall₂ (Announces db) new ids) : ∀ id ∈ ids, (db.transfers.lookup id).isSome := by
  induction h with
  | nil => exact fun id hid => absurd hid List.not_mem_nil
  | cons hannounced _ ih =>
    obtain ⟨t, ht, -⟩ := hannounced
    exact List.forall_mem_cons.2 ⟨by rw [ht]; rfl, ih⟩

theorem NamesRecipient.onward {db db' : Db} (honward : Onward db db') {p : Uuid} {name : String}
    (h : NamesRecipient db p name) : NamesRecipient db' p name := by
  obtain ⟨id, t, userId, u, ht, hpending, hpaid, hu, hname⟩ := h
  exact ⟨id, t, userId, u, honward.transfers id t ht, hpending, hpaid.onward honward,
    by rw [honward.users]; exact hu, hname⟩

/-- A call that writes no notice. -/
theorem Truthful.silent (h : Truthful env s₀ tr s) (honward : Onward s.world.db s'.world.db)
    (hsame : s'.notifications = s.notifications)
    (hnone : ∀ p name, ¬ Describes env ⟨0, c, s, s'⟩ p name) :
    Truthful env s₀ (⟨0, c, s, s'⟩ :: tr) s' where
  notices := by
    obtain ⟨new, ids, hnew, hnodup, hold, hannounced⟩ := h.notices
    exact ⟨new, ids, hsame.trans hnew, hnodup, hold, hannounced.imp (Announces.onward honward)⟩
  descriptions := by
    refine List.forall_mem_cons.2 ⟨fun p name hd => absurd hd (hnone p name), ?_⟩
    exact fun x hx p name hd => (h.descriptions x hx p name hd).onward honward

theorem paysAnother_unique {w : World} {recipient recipient' : Uuid × User}
    (h : PaysAnother env c.toPayCall w recipient) (h' : PaysAnother env c.toPayCall w recipient') :
    recipient' = recipient := Except.ok.inj (h'.1.symm.trans h.1)

theorem PaysAnother.customer {w : World} {recipient : Uuid × User}
    (h : PaysAnother env c.toPayCall w recipient) :
    w.db.users.lookup recipient.1 = some recipient.2 :=
  resolveRecipient_customer (w := w) env c.recipientHandleOrId recipient h.1

/-- The description that a payment writes is on its own pending row. -/
theorem Made.describes {recipient : Uuid × User}
    (h : Made c.toPayCall recipient s.world.db s'.world.db)
    (hpays : PaysAnother env c.toPayCall s.world recipient) {p : Uuid} {name : String}
    (hd : Describes env ⟨0, c, s, s'⟩ p name) :
    p = c.pendingTxId ∧ name = senderName (some recipient.2) := by
  obtain ⟨⟨_, recipient', -, hpays', hname⟩, hwritten, hchanged⟩ := hd
  rw [paysAnother_unique hpays hpays'] at hname
  obtain ⟨row, hrow, hfeed⟩ := h.described hname
  by_cases hp : p = c.pendingTxId
  · subst hp
    have hnew : description s' c.pendingTxId =
        some ("Transfer to " ++ senderName (some recipient.2)) := by
      rw [description, hfeed, AList.lookup_insert, Option.map_some, hrow]
    rw [hnew] at hwritten
    exact ⟨rfl, (String.append_right_inj _).1 (Option.some.inj hwritten).symm⟩
  · refine absurd ?_ hchanged
    simp only [description, hfeed, AList.lookup_insert_ne hp]

/-- A call that makes a transfer to another person, and tells them or does not. -/
theorem Truthful.paid {recipient : Uuid × User} {sender : Option User}
    (h : Truthful env s₀ tr s) (hstart : Onward s₀.world.db s.world.db)
    (hmade : Made c.toPayCall recipient s.world.db s'.world.db)
    (hpays : PaysAnother env c.toPayCall s.world recipient)
    (hnotice : s'.notifications = s.notifications ++
      if c.inboxUp then [receivedNotice c.toPayCall sender recipient.1] else []) :
    Truthful env s₀ (⟨0, c, s, s'⟩ :: tr) s' := by
  obtain ⟨t, ht, hpaid, hamount, hpending⟩ := hmade.transfer
  constructor
  · obtain ⟨new, ids, hnew, hnodup, hold, hannounced⟩ := h.notices
    have hannounced' := hannounced.imp (Announces.onward hmade.onward)
    cases hup : c.inboxUp with
    | false =>
      refine ⟨new, ids, ?_, hnodup, hold, hannounced'⟩
      rw [hnotice, hup, hnew]
      exact List.append_nil _
    | true =>
      refine ⟨new ++ [receivedNotice c.toPayCall sender recipient.1], ids ++ [c.transferId], ?_, ?_,
        ?_, ?_⟩
      · rw [hnotice, hup, hnew]
        exact List.append_assoc _ _ _
      · -- the transfer is new, and those announced before are there
        rw [List.nodup_append_comm, List.singleton_append, List.nodup_cons]
        refine ⟨fun hmem => ?_, hnodup⟩
        have hthere := announced_there hannounced _ hmem
        rw [hmade.fresh] at hthere
        cases hthere
      · rw [List.forall_mem_append, List.forall_mem_singleton]
        refine ⟨hold, Option.eq_none_iff_forall_ne_some.2 fun t' ht' => ?_⟩
        have hthere := hstart.transfers _ _ ht'
        rw [hmade.fresh] at hthere
        cases hthere
      · refine List.rel_append hannounced' (.cons ⟨t, ht, hpaid, ?_⟩ .nil)
        rw [hamount]
        rfl
  · refine List.forall_mem_cons.2 ⟨fun p name hd => ?_, fun x hx p name hd =>
      (h.descriptions x hx p name hd).onward hmade.onward⟩
    obtain ⟨rfl, rfl⟩ := hmade.describes hpays hd
    refine ⟨c.transferId, t, recipient.1, recipient.2, ht, hpending, hpaid, ?_, rfl⟩
    rw [hmade.onward.users]
    exact hpays.customer

/-- Every call keeps the notices truthful, if its key is not used again. -/
theorem Truthful.step (h : Truthful env s₀ tr s) (hstart : Onward s₀.world.db s.world.db)
    (hfirst : FirstUse env s c) :
    Onward s₀.world.db ((payAndNotify env 0 c).run s).2.world.db ∧
      Truthful env s₀ (⟨0, c, s, ((payAndNotify env 0 c).run s).2⟩ :: tr)
        ((payAndNotify env 0 c).run s).2 := by
  rcases payAndNotify_outcome env 0 c s with
    ⟨hsame, honward, hnone⟩ | ⟨recipient, res, w', hpays, hrun, hout⟩
  · refine ⟨hstart.trans honward, h.silent honward hsame fun p name hd => ?_⟩
    obtain ⟨⟨a, recipient, hok, hpays, -⟩, -⟩ := hd
    exact hnone a recipient hok hpays
  · have hmade := payOther_made hrun (hfirst recipient hpays)
    rw [hout]
    exact ⟨hstart.trans hmade.onward, h.paid hstart hmade hpays rfl⟩

end Runs

/-- **The notices of payments are truthful** in every sequence of payments in which no key is used
again for a payment to another person: every notice is of a transfer of its own, made in the
sequence, to an account of the user that is told, and of its amount; and a row that a payment leaves
with `Transfer to` and a name is the pending row of a transfer to a customer of that name. -/
theorem notices_truthful (env : PayEnv) (s₀ s : Inboxes) (tr : List (Step Inboxes PayNoticeCall))
    (hrun : Serial (payAndNotify env 0) s₀ tr s) (hfirst : ∀ x ∈ tr, FirstUse env x.pre x.call) :
    Truthful env s₀ tr s := by
  suffices h : Onward s₀.world.db s.world.db ∧ Truthful env s₀ tr s from h.2
  induction hrun with
  | start =>
    refine ⟨.refl _, ⟨[], [], (List.append_nil _).symm, .nil, ?_, .nil⟩, ?_⟩
    · exact fun id hid => absurd hid List.not_mem_nil
    · exact fun x hx => absurd hx List.not_mem_nil
  | call c seq ih =>
    rw [List.forall_mem_cons] at hfirst
    obtain ⟨honward, htruthful⟩ := ih hfirst.2
    exact htruthful.step honward hfirst.1

theorem firstUse_of_unused {env : PayEnv} {s : Inboxes} {c : PayNoticeCall}
    (h : (findByIdempotencyKey s.world.db c.idempotencyKey).isNone) : FirstUse env s c := by
  intro recipient _ id t hfound
  rw [hfound] at h
  cases h

/-- Ann pays Bob under the key `key`. -/
def sampleTransfer (key : String) (amountCents : ℤ) (id : Uuid) : PayNoticeCall where
  senderUserId := 1
  idempotencyKey := key
  fromAccountId := 10
  recipientHandleOrId := "2"
  amountCents
  note := none
  convert := fun _ _ => .error (.badRequest "no rate")
  transferId := id
  pendingTxId := id + 1
  now := 0
  queueUp := true
  inboxUp := true

/-- Bob has the identifier `2`. -/
def samplePayEnv : PayEnv where
  toEnv := { sampleEnv with parseUuid := fun s => if s = "2" then some 2 else none }
  sameEmail := fun a b => a == b

/-- Calls of Ann, one after the other. -/
def sampleNotices (cs : List PayNoticeCall) : List (Step Inboxes PayNoticeCall) × Inboxes :=
  serially (payAndNotify samplePayEnv 0) ⟨sampleWorld, [], ∅⟩ cs

def sampleKeys : List PayNoticeCall :=
  [sampleTransfer "a" 2000 100, sampleTransfer "b" 3000 102]

theorem notices_truthful_two_keys :
    Truthful samplePayEnv ⟨sampleWorld, [], ∅⟩ (sampleNotices sampleKeys).1
      (sampleNotices sampleKeys).2 ∧
    (sampleNotices sampleKeys).2.notifications.map Notification.title =
      ["You received $20.00", "You received $30.00"] ∧
    [101, 103].map (description (sampleNotices sampleKeys).2) =
      [some "Transfer to Bob", some "Transfer to Bob"] := by
  refine ⟨notices_truthful samplePayEnv _ _ _ (serially_serial _ _) fun x hx => ?_,
    by decide +kernel, by decide +kernel⟩
  have hunused : ∀ x ∈ (sampleNotices sampleKeys).1,
      (findByIdempotencyKey x.pre.world.db x.call.idempotencyKey).isNone := by decide +kernel
  exact firstUse_of_unused (hunused x hx)

/-- The same key twice. -/
def sampleRetry : List PayNoticeCall := [sampleTransfer "a" 2000 100, sampleTransfer "a" 3000 102]

/-- Ann repeats a payment of 20.00 as one of 30.00: Bob is told of both, and one is made. -/
theorem replay_announced :
    ¬ ∀ (env : PayEnv) (s₀ s : Inboxes) (tr : List (Step Inboxes PayNoticeCall)),
      Serial (payAndNotify env 0) s₀ tr s → Truthful env s₀ tr s := by
  intro h
  have htruthful : Truthful samplePayEnv ⟨sampleWorld, [], ∅⟩ (sampleNotices sampleRetry).1
      (sampleNotices sampleRetry).2 := h _ _ _ _ (serially_serial _ _)
  obtain ⟨new, ids, hnew, hnodup, -, hannounced⟩ := htruthful.notices
  have hlength : (sampleNotices sampleRetry).2.notifications.length = 2 := by decide +kernel
  have hkeys : (sampleNotices sampleRetry).2.world.db.transfers.keys = [100] := by decide +kernel
  have hsub : ids ⊆ [100] := by
    intro id hid
    rw [← hkeys]
    exact AList.mem_keys.1 (AList.lookup_isSome.1 (announced_there hannounced id hid))
  have hle := (List.subperm_of_subset hnodup hsub).length_le
  rw [hnew, List.nil_append, hannounced.length_eq] at hlength
  rw [hlength] at hle
  exact absurd hle (by decide)

end BankDemo.Pay
