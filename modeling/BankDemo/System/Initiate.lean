import BankDemo.System.Company
import BankDemo.Transfers.Service

/-!
# `initiate` in company

What an `initiate` does among other calls, for any guarantee that covers its debit
(`CoversDebit`): its one change is the debit, of a transfer that is what the request says
(`Admitted`) and from an account of the user, and its answer names a transfer of the user under the
key, new or found (`initiate_resolves`). The services that pay through `initiate` use it as a part
of their own calls.
-/

namespace BankDemo

open Ledger Transfers

/-- A row of the transfers table, as it was at some time. -/
def Seen (h : List World) (id : Uuid) (t : Transfer) : Prop :=
  ∃ w ∈ h, w.db.transfers.lookup id = some t

theorem Seen.mono {h h' : List World} {id : Uuid} {t : Transfer} (hs : Seen h id t)
    (hh : ∀ w ∈ h, w ∈ h') : Seen h' id t := by
  obtain ⟨w, hw, ht⟩ := hs
  exact ⟨w, hh w hw, ht⟩

/-- The account was the user's at some time. -/
def OwnerSeen (h : List World) (accountId userId : Uuid) : Prop :=
  ∃ w ∈ h, ∃ a, w.db.accounts.lookup accountId = some a ∧ a.userId = userId

theorem OwnerSeen.mono {h h' : List World} {accountId userId : Uuid}
    (hs : OwnerSeen h accountId userId) (hh : ∀ w ∈ h, w ∈ h') : OwnerSeen h' accountId userId := by
  obtain ⟨w, hw, ha⟩ := hs
  exact ⟨w, hh w hw, ha⟩

/-- The row is what `initiate` makes of the request, at a price that was quoted. -/
structure Admitted (env : Env) (c : InitiateCall) (t : Transfer) : Prop where
  key : c.idempotencyKey ≠ ""
  row : ∃ s fx toAccount, resolveSettlement env c = .ok (s, fx) ∧
    (quote env.cfg c.dto.kind s c.dto.instant (wireScope c.dto)).valid = true ∧
    t = newTransfer env c s
      (quote env.cfg c.dto.kind s c.dto.instant (wireScope c.dto)).feeCents toAccount

/-- The transfer goes where the request says, if it is not an internal one. -/
def Directed (c : InitiateCall) (t : Transfer) : Prop :=
  c.dto.kind ≠ .internal → t.toAccountId = c.dto.toAccountId

/-- The guarantee covers the debit of `initiate`. -/
def CoversDebit (env : Env) (i : ℕ) (ic : InitiateCall) (G : List World → World → Prop) : Prop :=
  ∀ w past db' t, Admitted env ic t → Directed ic t →
    OwnerSeen (w :: past) ic.dto.fromAccountId ic.userId →
    t.amountCents + t.feeCents ≤ w.db.balance t.fromAccountId → Initiated ic t w.db db' →
    (∀ j, j ≠ i → Keeps j w { w with db := db' }) → G (w :: past) { w with db := db' }

/-- What `initiate` answers: a transfer of its user under its key, which is the new one or was
found. -/
def Resolved (env : Env) (ic : InitiateCall) (h : List World) (r : Except Error InitiateResult) :
    Prop :=
  ∀ res, r = .ok res → ∃ t, Seen h res.transferId t ∧ t.idempotencyKey = ic.idempotencyKey ∧
    t.initiatedByUserId = ic.userId ∧ (res.transferId = ic.transferId ∧ Admitted env ic t ∨
      ∃ w ∈ h, findByIdempotencyKey w.db ic.idempotencyKey = some (res.transferId, t))

section Initiate

variable {env : Env} {i : ℕ} {G : List World → World → Prop} {h : List World} {ic : InitiateCall}

theorem resolved_error {e : Error} : Resolved env ic h (.error e) := by
  intro res hres
  cases hres

/-- The row read by a query is in the history afterwards. -/
theorem seen_of_read {w : World} {past h' : List World} {id : Uuid} {t : Transfer}
    (ht : w.db.transfers.lookup id = some t) (hR : rely i (w :: w :: past) h') : Seen h' id t :=
  ⟨w, hR.1 w List.mem_cons_self, ht⟩

theorem sourceAccount_follows [Idles i G] {userId accountId : Uuid} :
    (sourceAccount userId accountId).Follows (rely i) G
      (fun h r => ∀ a, r = .ok a → OwnerSeen h accountId userId) h := by
  refine follows_query fun w past _ => ?_
  cases hacct : w.db.accounts.lookup accountId with
  | none =>
    refine Prog.follows_throw fun a ha => ?_
    cases ha
  | some a =>
    simp only
    split
    · refine Prog.follows_throw fun a ha => ?_
      cases ha
    · rename_i howner
      split
      · refine Prog.follows_throw fun a ha => ?_
        cases ha
      · exact Prog.follows_pure fun _ _ => ⟨w, List.mem_cons_self, a, hacct, not_not.1 howner⟩

theorem internalDestination_follows [Idles i G] (ic : InitiateCall) :
    (internalDestination ic.userId ic.dto).Follows (rely i) G
      (fun h' r => (∀ w ∈ h, w ∈ h') ∧ ∀ toAccount, r = .ok toAccount →
        ic.dto.kind ≠ .internal → toAccount = none) h := by
  by_cases hkind : ic.dto.kind = .internal
  · exact (quiet_internalDestination _ _).follows fun h' r hR =>
      ⟨hR.1, fun _ _ hne => absurd hkind hne⟩
  · unfold internalDestination
    rw [if_neg hkind]
    refine Prog.follows_pure ⟨fun _ hw => hw, fun toAccount hto _ => ?_⟩
    cases hto
    rfl

theorem debitSender_follows [Idles i G] {t : Transfer} {fromAccount : Account}
    {toAccount : Option (Uuid × Account)} {fx : Option FxConversion} {description : String}
    (hG : CoversDebit env i ic G) (hadmitted : Admitted env ic t) (hdirected : Directed ic t)
    (howner : OwnerSeen h ic.dto.fromAccountId ic.userId) :
    (debitSender i ic t fromAccount toAccount fx description).Follows (rely i) G
      (fun h r => ∀ t', r = .ok t' → t' = t ∧ Seen h ic.transferId t) h := by
  refine withLock_follows ?_ fun h₁ hh₁ hheld => ?_
  · intro h h' r hh hr t' ht'
    obtain ⟨rfl, hseen⟩ := hr t' ht'
    exact ⟨rfl, hseen.mono hh⟩
  -- the fresh read: the balance is kept from here to the commit
  refine follows_query fun w past hR => ?_
  have hlock : w.locks t.fromAccountId = some i := hheld.rely hR
  have hthrow : ∀ e, (throw e : Service Transfer).Follows (rely i) G
      (fun h r => Holds i t.fromAccountId h ∧
        ∀ t', r = .ok t' → t' = t ∧ Seen h ic.transferId t) (w :: w :: past) := by
    intro e
    exact Prog.follows_throw ⟨⟨w, _, rfl, hlock⟩, fun t' ht' => by cases ht'⟩
  cases hacct : w.db.accounts.lookup t.fromAccountId with
  | none => exact hthrow _
  | some a =>
    simp only
    split
    · exact hthrow _
    · rename_i hfunds
      refine follows_commit (fun w' past' r db' hR' hb => ?_) fun e h' hR' => ?_
      · obtain ⟨hlock', hbalance⟩ := hR'.2 w _ w' past' rfl rfl _ hlock
        obtain ⟨hr, hinitiated⟩ := pendingTx_ok hb
        simp only at hr
        subst hr
        refine ⟨fun x hx => balance_of_credited hinitiated.balance hx, fun hkeeps => ?_,
          ⟨_, _, rfl, hlock'⟩, ?_⟩
        · refine hG w' past' db' r hadmitted hdirected ?_ ?_ hinitiated hkeeps
          · exact howner.mono fun x hx => hR'.1 x (List.mem_cons_of_mem _ (hR.1 x (hh₁ x hx)))
          · rw [hbalance, Db.balance, hacct]
            exact not_lt.1 hfunds
        · intro t' ht'
          cases ht'
          refine ⟨rfl, _, List.mem_cons_self, ?_⟩
          rw [hinitiated.transfers.lookup, if_pos rfl]
      · cases h' with
        | nil => exact absurd (hR'.1 w List.mem_cons_self) (by simp)
        | cons w' past' =>
          exact ⟨⟨w', past', rfl, (hR'.2 w _ w' past' rfl rfl _ hlock).1⟩,
            fun t' ht' => by cases ht'⟩

theorem afterDebit_follows [Idles i G] {t : Transfer} {fx : Option FxConversion}
    (hseen : Seen h ic.transferId t) (hadmitted : Admitted env ic t) :
    (afterDebit env ic t fx).Follows (rely i) G (Resolved env ic) h := by
  refine Quiet.follows_bind (quiet_emit _) (fun _ h₁ hR₁ => ?_) fun _ _ _ => resolved_error
  refine Quiet.follows_bind (quiet_handOver ic t) (fun _ h₂ hR₂ => ?_) fun _ _ _ => resolved_error
  refine Prog.follows_pure fun res hres => ?_
  cases hres
  obtain ⟨s, fx', toAccount, -, -, ht⟩ := hadmitted.row
  have hkey : t.idempotencyKey = ic.idempotencyKey := by rw [ht]; rfl
  have huser : t.initiatedByUserId = ic.userId := by rw [ht]; rfl
  exact ⟨t, (hseen.mono hR₁.1).mono hR₂.1, hkey, huser, .inl ⟨rfl, hadmitted⟩⟩

theorem initiatePriced_follows [Idles i G] {s fee : ℤ} {fx : Option FxConversion}
    (hG : CoversDebit env i ic G)
    (hadmitted : ∀ toAccount, Admitted env ic (newTransfer env ic s fee toAccount)) :
    (initiatePriced env i ic s fx fee).Follows (rely i) G (Resolved env ic) h := by
  refine Quiet.follows_bind (quiet_wireGate env _) (fun _ h₁ _ => ?_) fun _ _ _ => resolved_error
  refine Prog.follows_bind (sourceAccount_follows.imp fun h₂ r hr => ?_)
  cases r with
  | error e => exact resolved_error
  | ok a =>
    have howner := hr a rfl
    refine Prog.follows_bind ((internalDestination_follows ic).imp fun h₃ r hr₃ => ?_)
    cases r with
    | error e => exact resolved_error
    | ok toAccount =>
      obtain ⟨hR₃, hnone⟩ := hr₃
      have hdirected : Directed ic (newTransfer env ic s fee toAccount) := by
        intro hkind
        rw [hnone toAccount rfl hkind]
        rfl
      simp only
      split
      · exact Prog.follows_throw resolved_error
      · refine Quiet.follows_bind (quiet_describeTransfer env _ _ _) (fun d h₄ hR₄ => ?_)
          fun _ _ _ => resolved_error
        have howner₄ := (howner.mono hR₃).mono hR₄.1
        refine Prog.follows_bind
          ((debitSender_follows hG (hadmitted toAccount) hdirected howner₄).imp fun h₅ r hr => ?_)
        cases r with
        | error e => exact resolved_error
        | ok t =>
          obtain ⟨rfl, hseen⟩ := hr t rfl
          exact afterDebit_follows hseen (hadmitted toAccount)

/-- **`initiate` in company**: its one change is the debit, and its answer names a transfer of the
user under the key. -/
theorem initiate_resolves [Idles i G] (hG : CoversDebit env i ic G) (h : List World) :
    (initiate env i ic).Follows (rely i) G (Resolved env ic) h := by
  unfold initiate
  split
  · exact Prog.follows_throw resolved_error
  · rename_i hkey
    refine follows_query fun w past _ => ?_
    split
    · exact Prog.follows_throw resolved_error
    · refine follows_query fun w' past' _ => ?_
      cases hreplay : findByIdempotencyKey w'.db ic.idempotencyKey with
      | some r =>
        obtain ⟨id, t⟩ := r
        obtain ⟨ht, hk⟩ := Table.findRow_some hreplay
        simp only [replayed]
        split
        · exact Prog.follows_throw resolved_error
        · rename_i huser
          refine Prog.follows_pure fun res hres => ?_
          cases hres
          exact ⟨t, ⟨w', List.mem_cons_self, ht⟩, of_decide_eq_true hk, not_not.1 huser,
            .inr ⟨w', List.mem_cons_self, hreplay⟩⟩
      | none =>
        simp only [initiateNew]
        refine Prog.follows_bind (Prog.follows_lift ?_)
        cases hs : resolveSettlement env ic with
        | error e => exact resolved_error
        | ok r =>
          obtain ⟨s, fx⟩ := r
          simp only
          split
          · exact Prog.follows_throw resolved_error
          · rename_i hvalid
            simp only [Bool.not_eq_true', Bool.not_eq_false] at hvalid
            exact initiatePriced_follows hG
              fun toAccount => ⟨hkey, s, fx, toAccount, hs, hvalid, rfl⟩

end Initiate

end BankDemo
