import BankDemo.System.Changes

/-!
# Whose accounts transfers are from

`initiate` reads the account it debits before it takes the money, and goes on only if it is the
user's. `Change` does not say so; `owners` is the discipline of the system with that said in
addition (`OwnDebit`), and every call follows it (`program_owns`).
-/

namespace BankDemo

open Ledger Transfers Admin

/-- What a call of `initiate` takes is from an account that was the user's. -/
def OwnDebit (c : Call) (h : List World) (w' : World) : Prop :=
  ∀ ic w past, c = .initiate ic → h = w :: past →
    w'.db = w.db ∨ OwnerSeen h ic.dto.fromAccountId ic.userId

/-- What an action guarantees, with the owner of the account that is debited. -/
def ownGuar (env : Env) (i : ℕ) (c : Call) (h : List World) (w' : World) : Prop :=
  guar env i c h w' ∧ OwnDebit c h w'

/-- The discipline of the system, with the owners of the accounts that are debited. -/
def owners (env : Env) : Discipline World Error Answer Call where
  rely := rely
  guar := ownGuar env
  post := promise
  rely_trans := rely_trans
  rely_of_guar := fun hij hg => (system _).rely_of_guar hij hg.1
  post_mono := promise_mono

instance {env : Env} {i : ℕ} {c : Call} : Idles i (ownGuar env i c) where
  idle := by
    intro w w' past hdb hkeeps
    refine ⟨Idles.idle (i := i) hdb hkeeps, fun ic x px _ hx => ?_⟩
    cases hx
    exact .inl hdb

theorem ownGuar_coversDebit {env : Env} {i : ℕ} {ic : InitiateCall} :
    CoversDebit env i ic (ownGuar env i (.initiate ic)) := by
  intro w past db' t hadmitted hdirected howner hfunds hinitiated hkeeps
  refine ⟨guar_coversDebit w past db' t hadmitted hdirected howner hfunds hinitiated hkeeps, ?_⟩
  intro ic' x px hc hx
  cases hc
  cases hx
  exact .inr howner

/-! ## Owners do not change -/

/-- Accounts do not come, go or change hands. -/
def SameOwners (h : List World) : Prop :=
  ∀ w past, h = w :: past → ∀ w₁ ∈ h, ∀ a,
    (w₁.db.accounts.lookup a).map Account.userId = (w.db.accounts.lookup a).map Account.userId

theorem sameOwners_start (w : World) : SameOwners [w] := by
  intro w' past hw w₁ hw₁ a
  cases hw
  rw [List.mem_singleton.1 hw₁]

theorem SameOwners.step {w w' : World} {past : List World} (hsame : SameOwners (w :: past))
    (hstep : ∀ a, (w'.db.accounts.lookup a).map Account.userId =
      (w.db.accounts.lookup a).map Account.userId) : SameOwners (w' :: w :: past) := by
  intro v past' hv w₁ hw₁ a
  cases hv
  rcases List.mem_cons.1 hw₁ with rfl | hw₁
  · rfl
  · rw [hsame w past rfl w₁ hw₁ a]
    exact (hstep a).symm

/-- Who has owned an account owns it now. -/
theorem SameOwners.owner {w : World} {past : List World} (hsame : SameOwners (w :: past))
    {accountId userId : Uuid} (howner : OwnerSeen (w :: past) accountId userId) :
    ∃ acct, w.db.accounts.lookup accountId = some acct ∧ acct.userId = userId := by
  obtain ⟨w₁, hw₁, acct, hacct, huser⟩ := howner
  have hmap := hsame w past rfl w₁ hw₁ accountId
  rw [hacct, Option.map_some] at hmap
  obtain ⟨acct', hacct', huser'⟩ := Option.map_eq_some_iff.1 hmap.symm
  exact ⟨acct', hacct', huser'.trans huser⟩

/-! ## The calls -/

/-- **Every call takes only from accounts of its user**, in whatever company. -/
theorem program_owns (env : Env) (i : ℕ) (c : Call) (h : List World) :
    (program env i c).Follows (rely i) (ownGuar env i c) (promise c) h := by
  by_cases hc : ∃ ic, c = .initiate ic
  · obtain ⟨ic, rfl⟩ := hc
    refine Prog.follows_bind ((initiate_resolves ownGuar_coversDebit h).imp fun h' r hr => ?_)
    cases r with
    | error e =>
      intro ic' a _ ha
      cases ha
    | ok res =>
      refine Prog.follows_pure fun ic' a hic ha => ?_
      cases hic
      cases ha
      obtain ⟨t, hseen, hkey, huser, -⟩ := hr res rfl
      exact ⟨res, t, rfl, hseen, hkey, huser⟩
  · refine (program_follows env i c h).guarantee fun h' w' hguar => ⟨hguar, ?_⟩
    intro ic w past hic
    exact absurd ⟨ic, hic⟩ hc

end BankDemo
