import BankDemo.DirectDeposit.Service

/-!
# Deals are for customers with a direct deposit

Nothing keeps the calls about a direct deposit apart: a webhook looks the request up and then writes
the row of its user, and the guard of the deals looks at the row before the deals are read. In every
interleaving, though, a customer who gets through the guard has a direct deposit that was activated
by hand, or by a webhook with the id of a request that the customer had filed (`deals_earned`).

A deal is activated once: the index on the user and the deal decides between two calls, and the one
that comes too late answers with the row of the other (`deal_once`).
-/

namespace BankDemo.Deals

open Prog

/-! ## What the calls do -/

/-- The user has an active direct deposit. -/
def Active (userId : Uuid) (s : State) : Prop :=
  ∃ row, s.directDeposits.lookup userId = some row ∧ row.active = true

/-- The row of a user after a switch was started. -/
def filed (employerId : Uuid) (requestId : String) (old : Option DirectDeposit) : DirectDeposit :=
  (old.map fun row =>
    { row with employerId := some employerId, partnerRequestId := some requestId }).getD
      ⟨false, none, some employerId, some requestId⟩

/-- How a step of a call writes the direct deposit of a user. -/
inductive Writes :
    Call → List (State × State) → Uuid → Option DirectDeposit → DirectDeposit → Prop
  | filed {userId employerId id : Uuid} {dto : StartSwitchDto} {d : SwitchDraws}
      {own : List (State × State)} {old : Option DirectDeposit} {g s : State} {acct : BankAccount}
      (hlooked : (g, g) ∈ own) (hacct : g.checking userId = some (id, acct)) :
      Writes (.startSwitch userId dto d)
        ((s, s.addRequest (requestIdText d.requestId) (switchRequest userId dto acct)) :: own) userId old
        (filed employerId (requestIdText d.requestId) old)
  | confirmed {now : Instant} {partnerRequestId : String} {own : List (State × State)}
      {userId : Uuid} {read row : DirectDeposit} {g : State} (hlooked : (g, g) ∈ own)
      (hread : g.directDeposits.lookup userId = some read)
      (hnamed : read.partnerRequestId = some partnerRequestId) :
      Writes (.webhook now partnerRequestId) own userId (some row) (activated now row)
  | forced {now : Instant} {own : List (State × State)} {userId : Uuid}
      {old : Option DirectDeposit} :
      Writes (.forceActivate now userId) own userId old
        ((old.map (activated now)).getD ⟨true, some now, none, none⟩)

/-- What a step of a call makes of the direct deposits. -/
inductive DepositStep (c : Call) (own : List (State × State)) (s s' : State) : Prop
  | same (h : s'.directDeposits = s.directDeposits)
  | wrote {userId : Uuid} {row : DirectDeposit}
      (hwrites : Writes c own userId (s.directDeposits.lookup userId) row)
      (h : s'.directDeposits = s.directDeposits.insert userId row)
  | deleted {userId : Uuid} (hcall : c = .deleteUser userId)
      (h : s'.directDeposits = s.directDeposits.erase userId)

/-- The call has got through the guard, and has found the deal, which had not expired. -/
structure MayActivate (now : Instant) (userId dealId : Uuid) (own : List (State × State)) : Prop where
  guarded : ∃ g, (g, g) ∈ own ∧ Active userId g
  offered : ∃ g deal, (g, g) ∈ own ∧ g.deals.lookup dealId = some deal ∧
    ∀ expiresAt, deal.expiresAt = some expiresAt → now ≤ expiresAt

/-- What a step of a call makes of the activations. -/
inductive ActivationStep (c : Call) (own : List (State × State)) (s s' : State) : Prop
  | same (h : s'.activations = s.activations)
  | created {now : Instant} {userId dealId id : Uuid} (hcall : c = .activate now userId dealId id)
      (hnew : s.activations.lookup id = none)
      (hfree : ∀ id' a, s.activations.lookup id' = some a → ¬ (a.userId = userId ∧ a.dealId = dealId))
      (hmay : MayActivate now userId dealId own)
      (h : s'.activations = s.activations.insert id ⟨userId, dealId, now, none⟩)
  | deleted {userId : Uuid} (hcall : c = .deleteUser userId)
      (h : s'.activations = s.activations.deleteMany fun _ a => a.userId = userId)

/-- The newest of the steps that a call took. -/
def Did (c : Call) : List (State × State) → Prop
  | [] => True
  | (s, s') :: own => DepositStep c own s s' ∧ ActivationStep c own s s'

/-- Whom an answer says to have an active direct deposit. -/
def tells : Call → Answer → Option Uuid
  | .summary userId, .summary s => if s.active then some userId else none
  | .startSwitch userId _ _, .directDeposit row => if row.active then some userId else none
  | .deals _ userId, .deals _ => some userId
  | .activate _ userId _ _, .activated _ _ => some userId
  | _, _ => none

/-- What the answer of a call says. -/
structure Says (c : Call) (own : List (State × State)) (a : Answer) : Prop where
  /-- The call has looked. -/
  looked : ∀ userId, tells c a = some userId → ∃ x ∈ own, Active userId x.1
  /-- The row is that of the user and the deal, and was there after a step of the call. -/
  stored : ∀ id row, a = .activated id row → ∃ now userId dealId id',
    c = .activate now userId dealId id' ∧ row.userId = userId ∧ row.dealId = dealId ∧
      ∃ x ∈ own, x.2.activations.lookup id = some row

/-- The promise of a call. -/
def Promise (c : Call) (own : List (State × State)) : Except Error Answer → Prop
  | .ok a => Says c own a
  | .error _ => True

theorem did_same {c : Call} {own : List (State × State)} (s : State) : Did c ((s, s) :: own) :=
  ⟨.same rfl, .same rfl⟩

theorem says_nothing {c : Call} {own : List (State × State)} {a : Answer} (htells : tells c a = none)
    (ha : ∀ id row, a ≠ .activated id row) : Says c own a where
  looked userId h := by
    rw [htells] at h
    cases h
  stored id row h := absurd h (ha id row)

theorem active_of_any {userId : Uuid} {s : State}
    (h : (s.directDeposits.lookup userId).any DirectDeposit.active = true) : Active userId s := by
  obtain ⟨row, hrow, hactive⟩ := Option.any_eq_true _ _ |>.1 h
  exact ⟨row, hrow, hactive⟩

section Statements

variable {s : State}

theorem upsertEmployer_eq_ok {id : Uuid} {name : String} {domain : Option String} {r : Uuid × State}
    (h : upsertEmployer id name domain s = .ok r) :
    r.2.directDeposits = s.directDeposits ∧ r.2.activations = s.activations := by
  unfold upsertEmployer at h
  split at h
  · cases h
    exact ⟨rfl, rfl⟩
  · split at h
    · cases h
    · cases h
      exact ⟨rfl, rfl⟩

theorem upsert_eq_ok {userId : Uuid} {f : DirectDeposit → DirectDeposit} {create : DirectDeposit}
    {r : DirectDeposit × State} (h : upsert userId f create s = .ok r) :
    r = (((s.directDeposits.lookup userId).map f).getD create, { s with
      directDeposits := s.directDeposits.insert userId
        (((s.directDeposits.lookup userId).map f).getD create) }) := by
  unfold upsert at h
  dsimp only at h
  split at h
  · cases h
  · cases h
    rfl

theorem update_eq_ok {userId : Uuid} {f : DirectDeposit → DirectDeposit} {r : DirectDeposit × State}
    (h : update userId f s = .ok r) : ∃ row, s.directDeposits.lookup userId = some row ∧
      r.2 = { s with directDeposits := s.directDeposits.insert userId (f row) } := by
  unfold update at h
  split at h
  · cases h
  · next row hrow =>
    cases h
    exact ⟨row, hrow, rfl⟩

theorem createActivation_eq_ok {id : Uuid} {row : ActivatedDeal} {r : (Uuid × ActivatedDeal) × State}
    (h : createActivation id row s = .ok r) : s.activations.lookup id = none ∧
      (∀ id' a, s.activations.lookup id' = some a →
        ¬ (a.userId = row.userId ∧ a.dealId = row.dealId)) ∧
      r = ((id, row), { s with activations := s.activations.insert id row }) := by
  unfold createActivation at h
  split at h
  · cases h
  · next hnew =>
    split at h
    · cases h
    · next hfree =>
      split at h
      · cases h
      · cases h
        refine ⟨by simpa using hnew, fun id' a ha hkey => ?_, rfl⟩
        have hno := Table.findRow_none (by simpa using hfree) ha
        simp [hkey.1, hkey.2] at hno

end Statements

section Parts

variable {α β : Type} {c : Call} {own : List (State × State)}
  {Q : List (State × State) → Except Error β → Prop}

/-- A query, then more. -/
theorem does_query {f : State → α} {k : α → Handler β}
    (hk : ∀ g, (k (f g)).Does (Did c) Q ((g, g) :: own)) : (query f >>= k).Does (Did c) Q own :=
  does_bind (does_read fun g => ⟨did_same g, hk g⟩)

/-- The account of a customer, then more. -/
theorem does_accountPlain {userId : Uuid} {k : BankAccount → Handler β}
    (hk : ∀ g id acct, g.checking userId = some (id, acct) →
      (k acct).Does (Did c) Q ((g, g) :: own)) (herr : ∀ own e, Q own (.error e)) :
    (accountPlain userId >>= k).Does (Did c) Q own := by
  simp only [accountPlain, bind_assoc]
  apply does_query
  intro g
  cases hacct : g.checking userId with
  | none => exact herr _ _
  | some found =>
    obtain ⟨id, acct⟩ := found
    exact hk g id acct hacct

/-- The employer of a switch, then more. -/
theorem does_resolveEmployer {dto : StartSwitchDto} {id : Uuid} {k : Uuid → Handler β}
    (hk : ∀ employerId own', own ⊆ own' → (k employerId).Does (Did c) Q own')
    (herr : ∀ own e, Q own (.error e)) : (resolveEmployer dto id >>= k).Does (Did c) Q own := by
  unfold resolveEmployer
  cases dto.employerId with
  | some employerId => exact hk employerId own (List.Subset.refl own)
  | none =>
    apply does_bind
    apply does_attempt
    · intro s a s' _ h
      obtain ⟨hdeposits, hactivations⟩ := upsertEmployer_eq_ok h
      exact ⟨⟨.same hdeposits, .same hactivations⟩, hk a _ (List.subset_cons_self _ own)⟩
    · intro s e _ _
      exact ⟨did_same s, herr _ e⟩

/-- The guard, then more. -/
theorem does_canActivate {userId : Uuid} {k : Unit → Handler β}
    (hk : ∀ g, Active userId g → (k ()).Does (Did c) Q ((g, g) :: own))
    (herr : ∀ own e, Q own (.error e)) : (canActivate userId >>= k).Does (Did c) Q own := by
  simp only [canActivate, bind_assoc]
  apply does_query
  intro g
  split
  · next hactive => exact hk g (active_of_any hactive)
  · exact herr _ _

end Parts

theorem does_startSwitch (userId : Uuid) (dto : StartSwitchDto) (d : SwitchDraws) :
    (handle (.startSwitch userId dto d)).Does (Did (.startSwitch userId dto d))
      (Promise (.startSwitch userId dto d)) [] := by
  simp only [handle, startSwitch, bind_assoc]
  refine does_accountPlain (fun g id acct hacct => ?_) fun _ _ => trivial
  refine does_resolveEmployer (fun employerId own hown => ?_) fun _ _ => trivial
  simp only [start, bind_assoc, pure_bind]
  refine does_bind (does_modify fun s _ => ⟨⟨.same rfl, .same rfl⟩, ?_⟩)
  refine does_bind (does_attempt (fun s' row s'' _ h => ?_) fun s' _ _ _ => ⟨did_same s', trivial⟩)
  obtain ⟨rfl, rfl⟩ := Prod.mk.inj (upsert_eq_ok h)
  refine ⟨⟨.wrote (.filed (hown List.mem_cons_self) hacct) rfl, .same rfl⟩, fun u hu => ?_,
    fun _ _ h => (by cases h)⟩
  -- the row that is answered was active before, as a switch leaves it so
  simp only [tells] at hu
  split at hu
  · next hactive =>
    obtain rfl := Option.some.inj hu
    cases hold : s'.directDeposits.lookup userId with
    | none =>
      rw [hold] at hactive
      cases hactive
    | some old =>
      rw [hold] at hactive
      exact ⟨_, List.mem_cons_self, old, hold, hactive⟩
  · cases hu

theorem does_webhook (now : Instant) (partnerRequestId : String) :
    (handle (.webhook now partnerRequestId)).Does (Did (.webhook now partnerRequestId))
      (Promise (.webhook now partnerRequestId)) [] := by
  simp only [handle, handleWebhook, bind_assoc]
  apply does_query
  intro g
  cases hfind : g.directDeposits.findRow fun dd => dd.partnerRequestId = some partnerRequestId with
  | none => trivial
  | some found =>
    obtain ⟨userId, read⟩ := found
    obtain ⟨hread, hnamed⟩ := Table.findRow_some hfind
    dsimp only
    split
    · exact says_nothing rfl (by simp)
    · refine does_bind (does_attempt (fun s a s' _ h => ?_) fun s _ _ _ => ⟨did_same s, trivial⟩)
      obtain ⟨row, hrow, rfl⟩ : ∃ row, s.directDeposits.lookup userId = some row ∧ s' = _ :=
        update_eq_ok h
      refine ⟨⟨.wrote ?_ rfl, .same rfl⟩, says_nothing rfl (by simp)⟩
      rw [hrow]
      exact .confirmed List.mem_cons_self hread (of_decide_eq_true hnamed)

theorem does_activate (now : Instant) (userId dealId id : Uuid) :
    (handle (.activate now userId dealId id)).Does (Did (.activate now userId dealId id))
      (Promise (.activate now userId dealId id)) [] := by
  refine does_canActivate (fun g hactive => ?_) fun _ _ => trivial
  simp only [activate, bind_assoc]
  apply does_query
  intro g'
  cases hdeal : g'.deals.lookup dealId with
  | none => trivial
  | some deal =>
    dsimp only
    split
    · trivial
    · next hexpired =>
      have hlooked : ∀ {own : List (State × State)}, (g, g) ∈ own → ∀ u,
          some userId = some u → ∃ x ∈ own, Active u x.1 := by
        intro own hmem u hu
        obtain rfl := Option.some.inj hu
        exact ⟨_, hmem, hactive⟩
      refine does_bind (does_tryCatch (does_attempt (fun s a s' _ h => ?_) fun s e _ _ =>
        ⟨did_same s, ?_⟩))
      · obtain ⟨hnew, hfree, heq⟩ := createActivation_eq_ok h
        obtain ⟨rfl, rfl⟩ := Prod.mk.inj heq
        refine ⟨⟨.same rfl, .created rfl hnew hfree ⟨⟨g, by simp, hactive⟩, g', deal, by simp, hdeal,
          fun expiresAt h => ?_⟩ rfl⟩, ?_⟩
        · rw [h] at hexpired
          simpa using hexpired
        · refine ⟨hlooked (by simp), fun id row h => ?_⟩
          cases h
          exact ⟨now, userId, dealId, id, rfl, rfl, rfl, _, List.mem_cons_self,
            AList.lookup_insert _⟩
      · cases e with
        | uniqueViolation =>
          refine does_query fun s' => ?_
          cases hfind : s'.activations.findRow fun a => a.userId = userId && a.dealId = dealId with
          | none => trivial
          | some found =>
            obtain ⟨id', row⟩ := found
            obtain ⟨hrow, hkey⟩ := Table.findRow_some hfind
            simp only [Bool.and_eq_true, decide_eq_true_eq] at hkey
            refine ⟨hlooked (by simp), fun _ _ h => ?_⟩
            cases h
            exact ⟨now, userId, dealId, id, rfl, hkey.1, hkey.2, _, List.mem_cons_self, hrow⟩
        | _ => trivial

theorem handle_does (c : Call) : (handle c).Does (Did c) (Promise c) [] := by
  cases c with
  | summary userId =>
    simp only [handle, summary, bind_assoc]
    refine does_accountPlain (fun g id acct _ => ?_) fun _ _ => trivial
    apply does_query
    intro g'
    refine ⟨fun u h => ?_, fun _ _ h => (by cases h)⟩
    simp only [tells] at h
    split at h
    · next hactive =>
      obtain rfl := Option.some.inj h
      refine ⟨_, List.mem_cons_self, active_of_any ?_⟩
      rw [State.withEmployer, Option.any_map] at hactive
      exact hactive
    · cases h
  | startSwitch userId dto d => exact does_startSwitch userId dto d
  | webhook now partnerRequestId => exact does_webhook now partnerRequestId
  | forceActivate now userId =>
    refine does_bind (does_attempt (fun s a s' _ h => ?_) fun s _ _ _ => ⟨did_same s, trivial⟩)
    obtain ⟨-, rfl⟩ := Prod.mk.inj (upsert_eq_ok h)
    exact ⟨⟨.wrote .forced rfl, .same rfl⟩, says_nothing rfl (by simp)⟩
  | deals now userId =>
    refine does_canActivate (fun g hactive => ?_) fun _ _ => trivial
    simp only [list, bind_assoc]
    refine does_query fun g₁ => does_query fun g₂ => ⟨fun u h => ?_, fun _ _ h => (by cases h)⟩
    obtain rfl := Option.some.inj h
    exact ⟨(g, g), by simp, hactive⟩
  | activate now userId dealId id => exact does_activate now userId dealId id
  | account id row =>
    refine does_bind (does_modify fun s _ => ⟨?_, says_nothing rfl (by simp)⟩)
    cases row <;> exact ⟨.same rfl, .same rfl⟩
  | deleteUser userId =>
    exact does_bind (does_modify fun s _ =>
      ⟨⟨.deleted rfl rfl, .deleted rfl rfl⟩, says_nothing rfl (by simp)⟩)

/-! ## Rows after a step -/

section Steps

variable {c : Call} {own : List (State × State)} {s s' : State}

theorem DepositStep.lookup (h : DepositStep c own s s') {userId : Uuid} {row : DirectDeposit}
    (hrow : s'.directDeposits.lookup userId = some row) :
    s.directDeposits.lookup userId = some row ∨
      Writes c own userId (s.directDeposits.lookup userId) row := by
  cases h with
  | same h =>
    rw [h] at hrow
    exact .inl hrow
  | @wrote u new hwrites h =>
    rw [h] at hrow
    by_cases hu : userId = u
    · subst hu
      rw [AList.lookup_insert] at hrow
      obtain rfl := Option.some.inj hrow
      exact .inr hwrites
    · rw [AList.lookup_insert_ne hu] at hrow
      exact .inl hrow
  | @deleted u _ h =>
    rw [h] at hrow
    by_cases hu : userId = u
    · subst hu
      rw [AList.lookup_erase] at hrow
      cases hrow
    · rw [AList.lookup_erase_ne hu] at hrow
      exact .inl hrow

/-- A row that was written is active, or names a request, for a reason. -/
theorem Writes.reason {userId : Uuid} {old : Option DirectDeposit} {row : DirectDeposit}
    (h : Writes c own userId old row) :
    (row.active = true → (∃ before, old = some before ∧ before.active = true) ∨
      (∃ now, c = .forceActivate now userId) ∨ ∃ now requestId g read, c = .webhook now requestId ∧
        (g, g) ∈ own ∧ g.directDeposits.lookup userId = some read ∧
        read.partnerRequestId = some requestId) ∧
    ∀ requestId, row.partnerRequestId = some requestId →
      (∃ before, old = some before ∧ before.partnerRequestId = some requestId) ∨
      ∃ dto d g s id acct own', c = .startSwitch userId dto d ∧ requestId = requestIdText d.requestId ∧
        own = (s, s.addRequest requestId (switchRequest userId dto acct)) :: own' ∧ (g, g) ∈ own' ∧
        g.checking userId = some (id, acct) := by
  cases h with
  | @filed _ _ id dto d own' old g s acct hlooked hacct =>
    refine ⟨fun hactive => ?_, fun requestId hid => ?_⟩
    · cases old with
      | none => cases hactive
      | some before => exact .inl ⟨before, rfl, hactive⟩
    · have heq : requestId = requestIdText d.requestId := by
        cases old <;> exact (Option.some.inj hid).symm
      subst heq
      exact .inr ⟨dto, d, g, s, id, acct, own', rfl, rfl, rfl, hlooked, hacct⟩
  | @confirmed now requestId _ _ read row g hlooked hread hnamed =>
    exact ⟨fun _ => .inr (.inr ⟨now, requestId, g, read, rfl, hlooked, hread, hnamed⟩),
      fun _ hid => .inl ⟨row, rfl, hid⟩⟩
  | @forced now =>
    refine ⟨fun _ => .inr (.inl ⟨now, rfl⟩), fun requestId hid => ?_⟩
    cases old with
    | none => cases hid
    | some before => exact .inl ⟨before, rfl, hid⟩

theorem ActivationStep.lookup (h : ActivationStep c own s s') {id : Uuid} {row : ActivatedDeal}
    (hrow : s'.activations.lookup id = some row) :
    s.activations.lookup id = some row ∨
      ∃ now, c = .activate now row.userId row.dealId id ∧ row = ⟨row.userId, row.dealId, now, none⟩ ∧
        MayActivate now row.userId row.dealId own := by
  cases h with
  | same h =>
    rw [h] at hrow
    exact .inl hrow
  | @created now userId dealId id' hcall _ _ hmay h =>
    rw [h] at hrow
    by_cases hid : id = id'
    · subst hid
      rw [AList.lookup_insert] at hrow
      obtain rfl := Option.some.inj hrow
      exact .inr ⟨now, hcall, rfl, hmay⟩
    · rw [AList.lookup_insert_ne hid] at hrow
      exact .inl hrow
  | deleted _ h =>
    rw [h] at hrow
    exact .inl (Table.lookup_deleteMany.1 hrow).1

/-- No two activations are of one user and one deal. -/
def Distinct (s : State) : Prop :=
  ∀ id id' row row', s.activations.lookup id = some row → s.activations.lookup id' = some row' →
    row.userId = row'.userId → row.dealId = row'.dealId → id = id'

theorem ActivationStep.distinct (h : ActivationStep c own s s') (hs : Distinct s) : Distinct s' := by
  intro id id' row row' hrow hrow' huser hdeal
  cases h with
  | same h =>
    rw [h] at hrow hrow'
    exact hs id id' row row' hrow hrow' huser hdeal
  | @created now u d new _ _ hfree _ h =>
    rw [h] at hrow hrow'
    by_cases hid : id = new
    · by_cases hid' : id' = new
      · rw [hid, hid']
      · subst hid
        rw [AList.lookup_insert] at hrow
        rw [AList.lookup_insert_ne hid'] at hrow'
        obtain rfl := Option.some.inj hrow
        exact absurd ⟨huser.symm, hdeal.symm⟩ (hfree id' row' hrow')
    · rw [AList.lookup_insert_ne hid] at hrow
      by_cases hid' : id' = new
      · subst hid'
        rw [AList.lookup_insert] at hrow'
        obtain rfl := Option.some.inj hrow'
        exact absurd ⟨huser, hdeal⟩ (hfree id row hrow)
      · rw [AList.lookup_insert_ne hid'] at hrow'
        exact hs id id' row row' hrow hrow' huser hdeal
  | deleted _ h =>
    rw [h] at hrow hrow'
    exact hs id id' row row' (Table.lookup_deleteMany.1 hrow).1
      (Table.lookup_deleteMany.1 hrow').1 huser hdeal

/-- An activation stays until its user is deleted. -/
theorem ActivationStep.kept (h : ActivationStep c own s s') {id : Uuid} {row : ActivatedDeal}
    (hrow : s.activations.lookup id = some row) (hc : c ≠ .deleteUser row.userId) :
    s'.activations.lookup id = some row := by
  cases h with
  | same h => rw [h, hrow]
  | @created _ _ _ new _ hnew _ _ h =>
    have hid : id ≠ new := by
      rintro rfl
      rw [hnew] at hrow
      cases hrow
    rw [h, AList.lookup_insert_ne hid, hrow]
  | @deleted u hcall h =>
    have hu : row.userId ≠ u := by
      rintro rfl
      exact hc hcall
    rw [h]
    exact Table.lookup_deleteMany.2 ⟨hrow, by simp [hu]⟩

end Steps

/-! ## Runs -/

/-- The user had asked the provider for a switch, which got this id, with the numbers of an active
checking account that the call had found. -/
def Filed (userId : Uuid) (requestId : String) (tr : List (Step State Call)) : Prop :=
  ∃ later x earlier, tr = later ++ x :: earlier ∧ ∃ dto d id acct,
    x.call = .startSwitch userId dto d ∧ requestId = requestIdText d.requestId ∧
    x.post = x.pre.addRequest requestId (switchRequest userId dto acct) ∧
    ∃ y ∈ earlier, y.tid = x.tid ∧ y.pre.checking userId = some (id, acct)

theorem Filed.append {userId : Uuid} {requestId : String} {earlier : List (Step State Call)}
    (h : Filed userId requestId earlier) (later : List (Step State Call)) :
    Filed userId requestId (later ++ earlier) := by
  obtain ⟨late, x, past, rfl, hfiled⟩ := h
  exact ⟨later ++ late, x, past, (List.append_assoc ..).symm, hfiled⟩

/-- The direct deposit of the user became active by hand, or by a webhook with the id of a request
that the user had filed, and has been active since. -/
def Earned (userId : Uuid) (tr : List (Step State Call)) : Prop :=
  ∃ later x earlier, tr = later ++ x :: earlier ∧ ¬ Active userId x.pre ∧ Active userId x.post ∧
    (∀ z ∈ later, Active userId z.pre ∧ Active userId z.post) ∧
    ((∃ now, x.call = .forceActivate now userId) ∨
      ∃ now requestId, x.call = .webhook now requestId ∧ Filed userId requestId earlier)

section Runs

variable {s₀ : State} {tr : List (Step State Call)} {P : Pool State Error Answer Call}
  (hrun : Run (fun _ => handle) (fun _ => True) s₀ tr P)

include hrun

theorem did_of_run {later earlier : List (Step State Call)} {x : Step State Call}
    (hsplit : tr = later ++ x :: earlier) :
    DepositStep x.call (own x.tid earlier) x.pre x.post ∧
      ActivationStep x.call (own x.tid earlier) x.pre x.post :=
  (hrun.does fun _ c _ => handle_does c).1 later x earlier hsplit

theorem says_of_run {i : ℕ} {c : Call} {a : Answer} (h : P.Returned i c a) : Says c (own i tr) a :=
  (hrun.does fun _ c _ => handle_does c).2 i _ h.thread

/-- The request that a row names was filed by its user. -/
theorem filed_of_run (hempty : s₀.directDeposits = ∅) {userId : Uuid} {row : DirectDeposit}
    {requestId : String} (hrow : P.state.directDeposits.lookup userId = some row)
    (hid : row.partnerRequestId = some requestId) : Filed userId requestId tr := by
  refine hrun.induct (I := fun tr s => ∀ row, s.directDeposits.lookup userId = some row →
    row.partnerRequestId = some requestId → Filed userId requestId tr) ?_ ?_ row hrow hid
  · intro row hrow
    rw [hempty, AList.lookup_empty] at hrow
    cases hrow
  · intro later x earlier hsplit ih row hrow hid
    rcases (did_of_run hrun hsplit).1.lookup hrow with hsame | hwrites
    · exact (ih row hsame hid).append [x]
    · rcases hwrites.reason.2 requestId hid with
        ⟨before, hbefore, hid⟩ | ⟨dto, d, g, s, id, acct, own', hcall, hrequest, hown, hg, hacct⟩
      · exact (ih before hbefore hid).append [x]
      · obtain ⟨mid, y, past, hearlier, htid, heq, -, hpast⟩ := own_eq_cons hown
        obtain ⟨hpre, hpost⟩ := Prod.mk.inj heq
        rw [← hpast, mem_own] at hg
        obtain ⟨z, hz, hztid, rfl, -⟩ := hg
        have hcall' : y.call = x.call :=
          hrun.call_eq (by simp [hsplit, hearlier]) (by simp [hsplit]) htid
        exact ⟨x :: mid, y, past, by rw [hearlier]; rfl, dto, d, id, acct, hcall'.trans hcall,
          hrequest, by rw [hpost, hpre], z, hz, hztid.trans htid.symm, hacct⟩

/-- An active direct deposit was activated for a reason. -/
theorem earned_of_run (hempty : s₀.directDeposits = ∅) {userId : Uuid}
    (hactive : Active userId P.state) : Earned userId tr := by
  have hstart : ¬ Active userId s₀ := by
    rintro ⟨row, hrow, -⟩
    rw [hempty, AList.lookup_empty] at hrow
    cases hrow
  obtain ⟨later, x, earlier, hsplit, hpre, hpost, hlater⟩ := hrun.became hstart hactive
  refine ⟨later, x, earlier, hsplit, hpre, hpost, hlater, ?_⟩
  obtain ⟨row, hrow, hrowActive⟩ := hpost
  rcases (did_of_run hrun hsplit).1.lookup hrow with hsame | hwrites
  · exact absurd ⟨row, hsame, hrowActive⟩ hpre
  · rcases hwrites.reason.1 hrowActive with
      ⟨before, hbefore, hactive⟩ | hforced | ⟨now, requestId, g, read, hcall, hg, hread, hnamed⟩
    · exact absurd ⟨before, hbefore, hactive⟩ hpre
    · exact .inl hforced
    · -- the request was filed before the webhook looked
      obtain ⟨y, hy, -, rfl, -⟩ := mem_own.1 hg
      obtain ⟨mid, past, rfl⟩ := List.mem_iff_append.1 hy
      obtain ⟨P', hrun', hstate⟩ := hrun.before
        (show tr = (later ++ x :: mid) ++ y :: past by rw [hsplit]; simp)
      have hfiled := filed_of_run hrun' hempty (by rw [hstate, hread]) hnamed
      refine .inr ⟨now, requestId, hcall, ?_⟩
      rw [show mid ++ y :: past = (mid ++ [y]) ++ past by simp]
      exact hfiled.append (mid ++ [y])

theorem distinct_of_run (hempty : s₀.activations = ∅) : Distinct P.state := by
  refine hrun.induct (I := fun _ s => Distinct s) ?_
    fun later x earlier hsplit ih => (did_of_run hrun hsplit).2.distinct ih
  intro id id' row row' hrow
  rw [hempty, AList.lookup_empty] at hrow
  cases hrow

/-- An activation was created by a call of its user for its deal. -/
theorem created_of_run (hempty : s₀.activations = ∅) {id : Uuid} {row : ActivatedDeal}
    (hrow : P.state.activations.lookup id = some row) : ∃ later x earlier now,
      tr = later ++ x :: earlier ∧ x.call = .activate now row.userId row.dealId id ∧
      row = ⟨row.userId, row.dealId, now, none⟩ ∧
      MayActivate now row.userId row.dealId (own x.tid earlier) := by
  refine hrun.induct (I := fun tr s => ∀ row, s.activations.lookup id = some row →
    ∃ later x earlier now, tr = later ++ x :: earlier ∧
    x.call = .activate now row.userId row.dealId id ∧ row = ⟨row.userId, row.dealId, now, none⟩ ∧
    MayActivate now row.userId row.dealId (own x.tid earlier)) ?_ ?_ row hrow
  · intro row hrow
    rw [hempty, AList.lookup_empty] at hrow
    cases hrow
  · intro later x earlier hsplit ih row hrow
    rcases (did_of_run hrun hsplit).2.lookup hrow with hsame | ⟨now, hcall, hnew, hmay⟩
    · obtain ⟨late, y, past, now, rfl, hcreated⟩ := ih row hsame
      exact ⟨x :: late, y, past, now, rfl, hcreated⟩
    · exact ⟨[], x, earlier, now, rfl, hcall, hnew, hmay⟩

/-- The row of an answer is that of the user and the deal, and is there until the end, unless the user
is deleted. -/
theorem answered_stays {i : ℕ} {now : Instant} {userId dealId new id : Uuid} {row : ActivatedDeal}
    (hreturned : P.Returned i (.activate now userId dealId new) (.activated id row))
    (hthere : ∀ x ∈ tr, x.call ≠ .deleteUser userId) :
    row.userId = userId ∧ row.dealId = dealId ∧ P.state.activations.lookup id = some row := by
  obtain ⟨_, _, _, _, hcall, huser, hdeal, z, hz, hrow⟩ :=
    (says_of_run hrun hreturned).stored id row rfl
  cases hcall
  obtain ⟨x, hx, -, -, hpost⟩ := mem_own.1 hz
  obtain ⟨later, earlier, hsplit⟩ := List.mem_iff_append.1 hx
  have hkeep := hrun.keeps (I := fun s => s.activations.lookup id = some row)
    (show tr = later ++ (x :: earlier) from hsplit) (by rw [← hrow, ← hpost]; rfl)
    fun late y mid hlater hy => ?_
  · refine ⟨huser, hdeal, ?_⟩
    rw [hrun.state_eq]
    exact hkeep.2
  · have hlate : tr = late ++ y :: (mid ++ x :: earlier) := by
      rw [hsplit, hlater]
      simp
    exact (did_of_run hrun hlate).2.kept hy (by rw [huser]; exact hthere y (by simp [hlate]))

end Runs

/-- **Deals are earned.** In every interleaving of the calls from the time when there were no direct
deposits, an active direct deposit was activated by hand, or by a webhook with the id of a request
that its user had filed for the numbers of an active checking account of the user. A user who is
told of an active direct deposit, is listed the deals or has activated one had earned it by a step
in which the call looked. -/
theorem deals_earned (s₀ : State) (hempty : s₀.directDeposits = ∅) (tr : List (Step State Call))
    (P : Pool State Error Answer Call) (hrun : Run (fun _ => handle) (fun _ => True) s₀ tr P) :
    (∀ userId, Active userId P.state → Earned userId tr) ∧
    ∀ i c a userId, P.Returned i c a → tells c a = some userId →
      ∃ later x earlier, tr = later ++ x :: earlier ∧ x.tid = i ∧ Active userId x.pre ∧
        Earned userId earlier := by
  refine ⟨fun userId => earned_of_run hrun hempty, fun i c a userId hreturned htells => ?_⟩
  obtain ⟨y, hy, hactive⟩ := (says_of_run hrun hreturned).looked userId htells
  obtain ⟨x, hx, htid, hpre, -⟩ := mem_own.1 hy
  rw [← hpre] at hactive
  obtain ⟨later, earlier, hsplit⟩ := List.mem_iff_append.1 hx
  obtain ⟨P', hrun', hstate⟩ := hrun.before hsplit
  exact ⟨later, x, earlier, hsplit, htid, hactive,
    earned_of_run hrun' hempty (by rw [hstate]; exact hactive)⟩

/-! ### A direct deposit -/

/-- Customer 1 has a checking account, and there is one deal. -/
def sampleDeals : State where
  accounts := AList.insert 11 ⟨1, .checking, .active, "021000021", "000123456789"⟩ ∅
  employers := ∅
  directDeposits := ∅
  requests := ∅
  merchants := ∅
  deals := AList.insert 40 ⟨none, "Coffee", "5% back", 500, none, none⟩ ∅
  activations := ∅

/-- Customer 1 files a request, the partner confirms it, and two calls activate the deal at once. -/
def sampleSwitch : List (Choice Call) :=
  [.call (.startSwitch 1 ⟨"Acme", none, none⟩ ⟨20, 30⟩), .step 0, .step 0, .step 0, .step 0,
    .call (.webhook 500 (requestIdText 30)), .step 1, .step 1,
    .call (.activate 600 1 40 50), .call (.activate 601 1 40 51), .step 2, .step 3, .step 2, .step 3,
    .step 2, .step 3, .step 3]

def sampleActivated : List (Step State Call) × Pool State Error Answer Call :=
  exec (fun _ => handle) sampleDeals sampleSwitch

theorem deals_earned_sample :
    Earned 1 sampleActivated.1 ∧ ∃ later x earlier, sampleActivated.1 = later ++ x :: earlier ∧
      x.tid = 3 ∧ Active 1 x.pre ∧ Earned 1 earlier :=
  have hearned := deals_earned sampleDeals rfl _ _ (exec_run sampleSwitch fun _ _ => trivial)
  ⟨hearned.1 1 ⟨⟨true, some 500, some 20, some (requestIdText 30)⟩, by decide +kernel, rfl⟩,
    hearned.2 3 (.activate 601 1 40 51) (.activated 50 ⟨1, 40, 600, none⟩) 1 (by decide +kernel) rfl⟩

/-- **A deal is activated once.** In every interleaving of the calls from the time when there were
no activations, no two rows are of one user and one deal, and a row is there because a call of its
user for its deal had got through the guard and had found the deal open. Two calls of a user for one
deal that both answer name one row, of the user and the deal, unless the user was deleted. -/
theorem deal_once (s₀ : State) (hempty : s₀.activations = ∅) (tr : List (Step State Call))
    (P : Pool State Error Answer Call) (hrun : Run (fun _ => handle) (fun _ => True) s₀ tr P) :
    Distinct P.state ∧
    (∀ id row, P.state.activations.lookup id = some row → ∃ later x earlier now,
      tr = later ++ x :: earlier ∧ x.call = .activate now row.userId row.dealId id ∧
      row = ⟨row.userId, row.dealId, now, none⟩ ∧
      MayActivate now row.userId row.dealId (own x.tid earlier)) ∧
    ∀ userId dealId i j now now' new new' id id' row row',
      P.Returned i (.activate now userId dealId new) (.activated id row) →
      P.Returned j (.activate now' userId dealId new') (.activated id' row') →
      (∀ x ∈ tr, x.call ≠ .deleteUser userId) →
        id = id' ∧ row = row' ∧ row.userId = userId ∧ row.dealId = dealId := by
  have hdistinct := distinct_of_run hrun hempty
  refine ⟨hdistinct, fun id row => created_of_run hrun hempty, ?_⟩
  intro userId dealId i j now now' new new' id id' row row' hi hj hthere
  obtain ⟨huser, hdeal, hrow⟩ := answered_stays hrun hi hthere
  obtain ⟨huser', hdeal', hrow'⟩ := answered_stays hrun hj hthere
  obtain rfl := hdistinct id id' row row' hrow hrow' (huser.trans huser'.symm)
    (hdeal.trans hdeal'.symm)
  exact ⟨rfl, Option.some.inj (hrow.symm.trans hrow'), huser, hdeal⟩

theorem deal_once_sample : Distinct sampleActivated.2.state ∧
    sampleActivated.2.Returned 3 (.activate 601 1 40 51) (.activated 50 ⟨1, 40, 600, none⟩) ∧
    ∀ id row, sampleActivated.2.Returned 3 (.activate 601 1 40 51) (.activated id row) →
      50 = id ∧ (⟨1, 40, 600, none⟩ : ActivatedDeal) = row :=
  have honce := deal_once sampleDeals rfl _ _ (exec_run sampleSwitch fun _ _ => trivial)
  ⟨honce.1, by decide +kernel, fun id row hreturned =>
    have hsame := honce.2.2 1 40 2 3 600 601 50 51 50 id ⟨1, 40, 600, none⟩ row
      (by decide +kernel) hreturned (by decide +kernel)
    ⟨hsame.1, hsame.2.1⟩⟩

end BankDemo.Deals
