import BankDemo.Accounts.Provisioner
import BankDemo.Foundations.Interleave

/-!
# Provisioning exactly once

Every approval of a KYC record announces the accounts of its user again, and the card issuer answers
each announcement with a card.

* `provisioned_once`: when all handlers have finished, a user who had no account has one checking
  account, one savings account, the limits of the former and one card if and only if the user's record
  was approved once.
-/

namespace BankDemo.Accounts

open Cards

/-! ## What a user has -/

namespace Branch

/-- The user whose KYC record it is. -/
def holder (b : Branch) (kycId : Uuid) : Option Uuid :=
  (b.office.records.lookup kycId).map Signup.KycRecord.userId

/-- The account is the user's, of this type. -/
def Has (b : Branch) (accountId userId : Uuid) (type : AccountType) : Prop :=
  ∃ row, b.accounts.lookup accountId = some row ∧ row.userId = userId ∧ row.type = type

instance (b : Branch) (accountId userId : Uuid) (type : AccountType) :
    Decidable (b.Has accountId userId type) :=
  decidable_of_iff (((b.accounts.lookup accountId).any fun row =>
    row.userId = userId && row.type = type) = true) (by simp [Has, Option.any_eq_true])

/-- The account is the user's. -/
def Owns (b : Branch) (userId accountId : Uuid) : Prop :=
  ∃ row, b.accounts.lookup accountId = some row ∧ row.userId = userId

instance (b : Branch) (userId accountId : Uuid) : Decidable (b.Owns userId accountId) :=
  decidable_of_iff (((b.accounts.lookup accountId).any fun row => row.userId = userId) = true)
    (by simp [Owns, Option.any_eq_true])

/-- How many accounts of a type the user has. -/
def accountsOf (b : Branch) (userId : Uuid) (type : AccountType) : ℕ :=
  b.accounts.count fun _ a => a.userId = userId && a.type = type

/-- How many limits there are for checking accounts of the user. -/
def limitsOf (b : Branch) (userId : Uuid) : ℕ :=
  b.limits.count fun id _ => b.Has id userId .checking

/-- How many cards there are for accounts of the user. -/
def cardsOf (b : Branch) (userId : Uuid) : ℕ := b.cards.count fun _ c => b.Owns userId c.accountId

end Branch

/-- The user has one of each: a checking account, a savings account, limits and a card. -/
structure ProvisionedOnce (userId : Uuid) (b : Branch) : Prop where
  checking : b.accountsOf userId .checking = 1
  savings : b.accountsOf userId .savings = 1
  limits : b.limitsOf userId = 1
  card : b.cardsOf userId = 1

theorem Branch.Owns.unique {b : Branch} {u u' a : Uuid} (h : b.Owns u a) (h' : b.Owns u' a) :
    u = u' := by
  obtain ⟨row, hrow, rfl⟩ := h
  obtain ⟨row', hrow', rfl⟩ := h'
  rw [Option.some.inj (hrow.symm.trans hrow')]

theorem accountsOf_eq_one {b : Branch} {u : Uuid} {type : AccountType} :
    b.accountsOf u type = 1 ↔ ∃ a, b.Has a u type ∧ ∀ a', b.Has a' u type → a' = a := by
  rw [Branch.accountsOf, Table.count_eq_one]
  simp only [Bool.and_eq_true, decide_eq_true_eq]
  constructor
  · rintro ⟨a, row, hrow, hp, hunique⟩
    exact ⟨a, ⟨row, hrow, hp⟩, fun a' ⟨row', hrow', hp'⟩ => hunique a' row' hrow' hp'⟩
  · rintro ⟨a, ⟨row, hrow, hp⟩, hunique⟩
    exact ⟨a, row, hrow, hp, fun a' row' hrow' hp' => hunique a' ⟨row', hrow', hp'⟩⟩

theorem limitsOf_eq_one {b : Branch} {u : Uuid} : b.limitsOf u = 1 ↔
    ∃ a row, b.limits.lookup a = some row ∧ b.Has a u .checking ∧
      ∀ a' row', b.limits.lookup a' = some row' → b.Has a' u .checking → a' = a := by
  rw [Branch.limitsOf, Table.count_eq_one]
  simp only [decide_eq_true_eq]

theorem cardsOf_eq_one {b : Branch} {u : Uuid} : b.cardsOf u = 1 ↔
    ∃ k row, b.cards.lookup k = some row ∧ b.Owns u row.accountId ∧
      ∀ k' row', b.cards.lookup k' = some row' → b.Owns u row'.accountId → k' = k := by
  rw [Branch.cardsOf, Table.count_eq_one]
  simp only [decide_eq_true_eq]

/-! ## The discipline -/

/-- Rows stay, and records keep their users. -/
structure Kept (b b' : Branch) : Prop where
  holder : ∀ k, b'.holder k = b.holder k
  accounts : ∀ a row, b.accounts.lookup a = some row → b'.accounts.lookup a = some row
  limits : ∀ a row, b.limits.lookup a = some row → b'.limits.lookup a = some row
  cards : ∀ k row, b.cards.lookup k = some row → b'.cards.lookup k = some row

/-- What the others do: they keep the rows, and they leave the ids of this draw alone. -/
structure Beside (d : Draws) (b b' : Branch) : Prop extends Kept b b' where
  checking : b.accounts.lookup d.checkingId = none → b'.accounts.lookup d.checkingId = none
  savings : b.accounts.lookup d.savingsId = none → b'.accounts.lookup d.savingsId = none
  limit : b.limits.lookup d.checkingId = none → b'.limits.lookup d.checkingId = none
  card : b.cards.lookup d.cardId = none → b'.cards.lookup d.cardId = none

/-- The user whose record the call approves. -/
def KycCall.holder (c : KycCall) (b : Branch) : Option Uuid := c.approving.bind b.holder

/-- What an action of a call does: the rows that are new are under the ids it draws, and they are for
the user whose record it approves. -/
structure Provides (d : Draws) (c : KycCall) (b b' : Branch) : Prop extends Kept b b' where
  account : ∀ a row, b'.accounts.lookup a = some row → b.accounts.lookup a = some row ∨
    (c.holder b = some row.userId ∧ row.mockAccountNumber = d.mockAccountNumber row.type 0 ∧
      ((a = d.checkingId ∧ row.type = .checking ∧ (b'.limits.lookup a).isSome) ∨
        (a = d.savingsId ∧ row.type = .savings)))
  limit : ∀ a row, b'.limits.lookup a = some row → b.limits.lookup a = some row ∨ a = d.checkingId
  card : ∀ k row, b'.cards.lookup k = some row → b.cards.lookup k = some row ∨
    (k = d.cardId ∧ ∃ u, c.holder b = some u ∧ b.Owns u row.accountId)

/-- Two draws have no id in common. -/
structure Apart (d d' : Draws) : Prop where
  accounts : ∀ a, a = d.checkingId ∨ a = d.savingsId → a ≠ d'.checkingId ∧ a ≠ d'.savingsId
  card : d.cardId ≠ d'.cardId

/-- The ids of the draw are new. -/
structure Unused (d : Draws) (b : Branch) : Prop where
  checking : b.accounts.lookup d.checkingId = none
  savings : b.accounts.lookup d.savingsId = none
  limits : b.limits.lookup d.checkingId = none
  card : b.cards.lookup d.cardId = none

theorem Kept.refl (b : Branch) : Kept b b :=
  ⟨fun _ => rfl, fun _ _ h => h, fun _ _ h => h, fun _ _ h => h⟩

theorem Kept.trans {b₁ b₂ b₃ : Branch} (h : Kept b₁ b₂) (h' : Kept b₂ b₃) : Kept b₁ b₃ :=
  ⟨fun k => (h'.holder k).trans (h.holder k),
    fun a row hrow => h'.accounts a row (h.accounts a row hrow),
    fun a row hrow => h'.limits a row (h.limits a row hrow),
    fun k row hrow => h'.cards k row (h.cards k row hrow)⟩

theorem Kept.has {b b' : Branch} (h : Kept b b') {a u : Uuid} {type : AccountType}
    (hhas : b.Has a u type) : b'.Has a u type := by
  obtain ⟨row, hrow, huser, htype⟩ := hhas
  exact ⟨row, h.accounts a row hrow, huser, htype⟩

theorem Kept.callHolder {b b' : Branch} (h : Kept b b') (c : KycCall) : c.holder b' = c.holder b := by
  cases c with
  | approve => exact h.holder _
  | reject => rfl

theorem Beside.refl (d : Draws) (b : Branch) : Beside d b b :=
  ⟨.refl b, id, id, id, id⟩

theorem Beside.trans {d : Draws} {b₁ b₂ b₃ : Branch} (h : Beside d b₁ b₂) (h' : Beside d b₂ b₃) :
    Beside d b₁ b₃ :=
  ⟨h.toKept.trans h'.toKept, fun hn => h'.checking (h.checking hn),
    fun hn => h'.savings (h.savings hn), fun hn => h'.limit (h.limit hn),
    fun hn => h'.card (h.card hn)⟩

theorem Beside.unused {d : Draws} {b b' : Branch} (h : Beside d b b') (hunused : Unused d b) :
    Unused d b' :=
  ⟨h.checking hunused.checking, h.savings hunused.savings, h.limit hunused.limits,
    h.card hunused.card⟩

/-- A call leaves the ids of the other calls alone. -/
theorem Provides.beside {d d' : Draws} {c : KycCall} {b b' : Branch} (h : Provides d c b b')
    (hapart : Apart d d') : Beside d' b b' := by
  have hnew : ∀ a, a = d'.checkingId ∨ a = d'.savingsId → b.accounts.lookup a = none →
      b'.accounts.lookup a = none := by
    intro a ha hnone
    cases hrow : b'.accounts.lookup a with
    | none => rfl
    | some row =>
      exfalso
      rcases h.account a row hrow with hold | ⟨-, -, ⟨rfl, -⟩ | ⟨rfl, -⟩⟩
      · rw [hnone] at hold
        cases hold
      · obtain ⟨h₁, h₂⟩ := hapart.accounts _ (.inl rfl)
        exact ha.elim h₁ h₂
      · obtain ⟨h₁, h₂⟩ := hapart.accounts _ (.inr rfl)
        exact ha.elim h₁ h₂
  refine ⟨h.toKept, hnew _ (.inl rfl), hnew _ (.inr rfl), fun hnone => ?_, fun hnone => ?_⟩
  · cases hrow : b'.limits.lookup d'.checkingId with
    | none => rfl
    | some row =>
      exfalso
      rcases h.limit _ row hrow with hold | heq
      · rw [hnone] at hold
        cases hold
      · exact (hapart.accounts _ (.inl rfl)).1 heq.symm
  · cases hrow : b'.cards.lookup d'.cardId with
    | none => rfl
    | some row =>
      exfalso
      rcases h.card _ row hrow with hold | ⟨heq, -⟩
      · rw [hnone] at hold
        cases hold
      · exact hapart.card heq.symm

/-- An action that only decides a record. -/
theorem provides_of_office {d : Draws} {c : KycCall} {b : Branch} {o : Kyc.Office}
    (hholder : ∀ k, Branch.holder { b with office := o } k = b.holder k) :
    Provides d c b { b with office := o } :=
  ⟨⟨hholder, fun _ _ h => h, fun _ _ h => h, fun _ _ h => h⟩, fun _ _ h => .inl h,
    fun _ _ h => .inl h, fun _ _ h => .inl h⟩

theorem provides_refl (d : Draws) (c : KycCall) (b : Branch) : Provides d c b b :=
  provides_of_office (o := b.office) fun _ => rfl

/-- Opening the accounts of the user whose record the call approves. -/
theorem provides_opened {cfg : Config} {d : Draws} {now : Instant} {u : Uuid} {c : KycCall}
    {b : Branch} (hclear : Clear d now u b) (hholder : c.holder b = some u) :
    Provides d c b (d.opened cfg now u b) := by
  have hchecking : ∀ a row, b.accounts.lookup a = some row →
      (b.accounts.insert d.checkingId (d.checking now u)).lookup a = some row := by
    intro a row hrow
    rw [Table.lookup_insert_ite, if_neg]
    · exact hrow
    · rintro rfl
      rw [hclear.checking] at hrow
      cases hrow
  have hlimits : ∀ a row, b.limits.lookup a = some row →
      (b.limits.insert d.checkingId cfg.limits).lookup a = some row := by
    intro a row hrow
    rw [Table.lookup_insert_ite, if_neg]
    · exact hrow
    · rintro rfl
      rw [hclear.limits] at hrow
      cases hrow
  refine ⟨⟨fun _ => rfl, fun a row hrow => ?_, hlimits, fun _ _ h => h⟩, fun a row hrow => ?_,
    fun a row hrow => ?_, fun _ _ h => .inl h⟩
  · have hrow := hchecking a row hrow
    simp only [Draws.opened]
    rw [Table.lookup_insert_ite, if_neg]
    · exact hrow
    · rintro rfl
      rw [hclear.savings] at hrow
      cases hrow
  · simp only [Draws.opened] at hrow ⊢
    rw [Table.lookup_insert_ite, Table.lookup_insert_ite] at hrow
    split at hrow
    · rename_i ha
      obtain rfl := Option.some.inj hrow
      exact .inr ⟨hholder, rfl, .inr ⟨ha, rfl⟩⟩
    · split at hrow
      · rename_i ha
        obtain rfl := Option.some.inj hrow
        refine .inr ⟨hholder, rfl, .inl ⟨ha, rfl, ?_⟩⟩
        rw [ha, AList.lookup_insert]
        rfl
      · exact .inl hrow
  · simp only [Draws.opened] at hrow
    rw [Table.lookup_insert_ite] at hrow
    split at hrow
    · rename_i ha
      exact .inr ha
    · exact .inl hrow

/-- A card for an account of the user whose record the call approves. -/
theorem provides_issued {d : Draws} {c : KycCall} {u : Uuid} {b : Branch} {card : Card}
    (hnew : b.cards.lookup d.cardId = none) (hholder : c.holder b = some u)
    (howns : b.Owns u card.accountId) :
    Provides d c b { b with cards := b.cards.insert d.cardId card } := by
  refine ⟨⟨fun _ => rfl, fun _ _ h => h, fun _ _ h => h, fun k row hrow => ?_⟩, fun _ _ h => .inl h,
    fun _ _ h => .inl h, fun k row hrow => ?_⟩
  · simp only
    rw [Table.lookup_insert_ite, if_neg]
    · exact hrow
    · rintro rfl
      rw [hnew] at hrow
      cases hrow
  · simp only at hrow
    rw [Table.lookup_insert_ite] at hrow
    split at hrow
    · rename_i hk
      obtain rfl := Option.some.inj hrow
      exact .inr ⟨hk, u, hholder, howns⟩
    · exact .inl hrow

/-! ## What a call promises -/

/-- One of the account numbers drawn first is drawn twice, or another account has it. -/
def Blocked (d : Draws) (b : Branch) : Prop :=
  d.mockAccountNumber .checking 0 = d.mockAccountNumber .savings 0 ∨
    ∃ a row type, b.accounts.lookup a = some row ∧ a ≠ d.checkingId ∧ a ≠ d.savingsId ∧
      row.mockAccountNumber = d.mockAccountNumber type 0

/-- The user has both accounts. -/
structure Found (userId checking savings : Uuid) (b : Branch) : Prop where
  checking : b.Has checking userId .checking
  savings : b.Has savings userId .savings

/-- The user has both accounts, and the card is issued. -/
def Served (d : Draws) (userId : Uuid) (b : Branch) : Prop :=
  ∃ card savings, b.cards.lookup d.cardId = some card ∧ Found userId card.accountId savings b

/-- An approval leaves the user served, or was blocked. -/
def Promise (d : Draws) (c : KycCall) (b : Branch) : Prop :=
  ∀ u, c.holder b = some u → Blocked d b ∨ Served d u b

theorem Kept.found {b b' : Branch} (h : Kept b b') {u checking savings : Uuid}
    (hfound : Found u checking savings b) : Found u checking savings b' :=
  ⟨h.has hfound.checking, h.has hfound.savings⟩

theorem promise_of_served {d : Draws} {c : KycCall} {u : Uuid} {b : Branch}
    (hholder : c.holder b = some u) (hserved : Served d u b) : Promise d c b := by
  intro u' hu
  obtain rfl := Option.some.inj (hholder.symm.trans hu)
  exact .inr hserved

theorem Kept.promise {d : Draws} {c : KycCall} {b b' : Branch} (h : Kept b b')
    (hpromise : Promise d c b) : Promise d c b' := by
  intro u hu
  rw [h.callHolder] at hu
  rcases hpromise u hu with (heq | ⟨a, row, type, hrow, hnumber⟩) | ⟨card, savings, hcard, hfound⟩
  · exact .inl (.inl heq)
  · exact .inl (.inr ⟨a, row, type, h.accounts a row hrow, hnumber⟩)
  · exact .inr ⟨card, savings, h.cards _ card hcard, h.found hfound⟩

theorem numberTaken_iff {accounts : Table Uuid Account} {number : String} :
    numberTaken accounts number = true ↔
      ∃ a row, accounts.lookup a = some row ∧ row.mockAccountNumber = number := by
  simp only [numberTaken, List.any_eq_true, decide_eq_true_eq]
  constructor
  · rintro ⟨e, he, hnumber⟩
    exact ⟨e.1, e.2, Table.mem_entries_iff.1 he, hnumber⟩
  · rintro ⟨a, row, hrow, hnumber⟩
    exact ⟨⟨a, row⟩, Table.mem_entries_iff.2 hrow, hnumber⟩

/-- With new ids, only a number can be in the way. -/
theorem blocked_of_not_clear {d : Draws} {now : Instant} {u : Uuid} {b : Branch}
    (hdistinct : d.checkingId ≠ d.savingsId) (hunused : Unused d b) (hclear : ¬ Clear d now u b) :
    Blocked d b := by
  have hother : ∀ type, numberTaken b.accounts (d.mockAccountNumber type 0) = true →
      Blocked d b := by
    intro type htaken
    obtain ⟨a, row, hrow, hnumber⟩ := numberTaken_iff.1 htaken
    refine .inr ⟨a, row, type, hrow, ?_, ?_, hnumber⟩
    · rintro rfl
      rw [hunused.checking] at hrow
      cases hrow
    · rintro rfl
      rw [hunused.savings] at hrow
      cases hrow
  by_contra hfree
  refine hclear ⟨hunused.checking, ?_, hunused.limits, ?_, ?_⟩
  · rw [Table.lookup_insert_ite, if_neg (Ne.symm hdistinct)]
    exact hunused.savings
  · cases htaken : numberTaken b.accounts (d.mockAccountNumber .checking 0) with
    | false => rfl
    | true => exact absurd (hother _ htaken) hfree
  · rw [← Bool.not_eq_true, numberTaken_iff]
    rintro ⟨a, row, hrow, hnumber⟩
    rw [Table.lookup_insert_ite] at hrow
    split at hrow
    · obtain rfl := Option.some.inj hrow
      exact hfree (.inl hnumber)
    · exact hfree (hother .savings (numberTaken_iff.2 ⟨a, row, hrow, hnumber⟩))

/-- What `findBoth` finds among the accounts of a user. -/
theorem found_of_findBoth {u : Uuid} {b : Branch} {both : AccountRow × AccountRow}
    (h : findBoth (listForUser u b) = some both) : Found u both.1.1 both.2.1 b := by
  obtain ⟨hchecking, hsavings, htype, htype'⟩ := findBoth_some h
  obtain ⟨hc, huser⟩ := mem_listForUser.1 hchecking
  obtain ⟨hs, huser'⟩ := mem_listForUser.1 hsavings
  exact ⟨⟨_, hc, huser, htype⟩, ⟨_, hs, huser', htype'⟩⟩

/-! ## Every call keeps to the discipline -/

/-- The call approves a record of the user, and its ids are new. -/
structure Ready (d : Draws) (c : KycCall) (userId : Uuid) (b : Branch) : Prop where
  holder : c.holder b = some userId
  unused : Unused d b

theorem Beside.ready {d : Draws} {c : KycCall} {u : Uuid} {b b' : Branch} (h : Beside d b b')
    (hready : Ready d c u b) : Ready d c u b' :=
  ⟨(h.callHolder c).trans hready.holder, h.unused hready.unused⟩

/-- The provisioning is over: the accounts are there, or it was blocked. -/
structure Provided (d : Draws) (c : KycCall) (userId : Uuid)
    (r : Except Error (AccountRow × AccountRow)) (b : Branch) : Prop where
  holder : c.holder b = some userId
  card : b.cards.lookup d.cardId = none
  found : ∀ both, r = .ok both → Found userId both.1.1 both.2.1 b
  blocked : ∀ e, r = .error e → Blocked d b

section Calls

variable {cfg : Config} {d : Draws} {c : KycCall} {u : Uuid} {now : Instant} {s : Branch}

theorem found_opened {b : Branch} (hdistinct : d.checkingId ≠ d.savingsId) :
    Found u d.checkingId d.savingsId (d.opened cfg now u b) := by
  have hsavings : (d.opened cfg now u b).accounts.lookup d.savingsId = some (d.savings cfg now u) :=
    AList.lookup_insert _
  have hchecking : (d.opened cfg now u b).accounts.lookup d.checkingId = some (d.checking now u) := by
    simp only [Draws.opened]
    rw [Table.lookup_insert_ite, if_neg hdistinct, AList.lookup_insert]
  exact ⟨⟨_, hchecking, rfl, rfl⟩, ⟨_, hsavings, rfl, rfl⟩⟩

theorem openAccounts_upholds (hdistinct : d.checkingId ≠ d.savingsId) (hready : Ready d c u s) :
    (transaction (openAccounts cfg d now u)).Upholds (Beside d) (Provides d c) (Provided d c u) s := by
  refine provision_upholds (fun b hR hclear => ?_) fun b e hR hclear => ?_
  · have hb := hR.ready hready
    have hprovides : Provides d c b (d.opened cfg now u b) := provides_opened hclear hb.holder
    refine ⟨hprovides, (hprovides.callHolder c).trans hb.holder, hb.unused.card, ?_, nofun⟩
    rintro both hboth
    obtain rfl := Except.ok.inj hboth
    exact found_opened hdistinct
  · have hb := hR.ready hready
    refine ⟨provides_refl d c b, hb.holder, hb.unused.card, fun both hboth => ?_, fun _ _ => ?_⟩
    · cases hboth
    · exact blocked_of_not_clear hdistinct hb.unused hclear

theorem provisionForUser_upholds (hdistinct : d.checkingId ≠ d.savingsId) (hready : Ready d c u s) :
    (provisionForUser cfg d now u).Upholds (Beside d) (Provides d c) (Provided d c u) s := by
  refine Prog.upholds_bind (Prog.upholds_read fun b hR => ⟨provides_refl d c b, ?_⟩)
  have hb := hR.ready hready
  simp only
  split
  · refine Prog.upholds_bind (Prog.upholds_read fun b' hR' => ⟨provides_refl d c b', ?_⟩)
    have hb' := hR'.ready hb
    cases hboth : findBoth (listForUser u b') with
    | none => exact openAccounts_upholds hdistinct hb'
    | some both =>
      refine Prog.upholds_pure ⟨hb'.holder, hb'.unused.card, ?_, nofun⟩
      intro found hfound
      obtain rfl := Except.ok.inj hfound
      exact found_of_findBoth hboth
  · exact Prog.upholds_bind (Prog.upholds_pure (openAccounts_upholds hdistinct hb))

theorem createCard_upholds {card : Card} {savings : Uuid} (hholder : c.holder s = some u)
    (hcard : s.cards.lookup d.cardId = none) (hfound : Found u card.accountId savings s) :
    (createCard d.cardId card).Upholds (Beside d) (Provides d c)
      (fun r b => r = .ok d.cardId ∧ Promise d c b) s := by
  refine Prog.upholds_attempt (fun b id b' hR hb => ?_) fun b e hR hb => ?_
  · have hfound := hR.found hfound
    have hnone := hR.card hcard
    obtain ⟨row, hrow, huser, -⟩ := hfound.checking
    rw [hnone, hrow] at hb
    cases hb
    have hholder := (hR.callHolder c).trans hholder
    have hprovides := provides_issued hnone hholder ⟨row, hrow, huser⟩
    exact ⟨hprovides, rfl, promise_of_served ((hprovides.callHolder c).trans hholder)
      ⟨card, savings, AList.lookup_insert _, hprovides.found hfound⟩⟩
  · -- the account is there, and the id is new
    obtain ⟨row, hrow, -⟩ := (hR.found hfound).checking
    rw [hR.card hcard, hrow] at hb
    cases hb

/-- The card for the checking account. -/
theorem onAccountCreated_upholds {checking savings : Uuid} (hbin : isBin cfg.cardDemoBin = true)
    (hholder : c.holder s = some u) (hcard : s.cards.lookup d.cardId = none)
    (hfound : Found u checking savings s) :
    (onAccountCreated cfg d ⟨checking, u, .checking, now⟩).Upholds (Beside d) (Provides d c)
      (fun r b => r = .ok () ∧ Promise d c b) s := by
  rw [onAccountCreated, if_neg (by simp)]
  refine Prog.upholds_tryCatch (Prog.upholds_bind (Prog.upholds_bind (Prog.upholds_lift ?_)))
  rw [generatePan, if_pos hbin]
  refine (createCard_upholds hholder hcard hfound).imp fun r b hr => ?_
  obtain ⟨rfl, hpromise⟩ := hr
  exact Prog.upholds_pure ⟨rfl, hpromise⟩

theorem onKycApproved_upholds {payload : Kyc.KycApprovedPayload}
    (hbin : isBin cfg.cardDemoBin = true) (hdistinct : d.checkingId ≠ d.savingsId)
    (hready : Ready d c payload.userId s) :
    (onKycApproved cfg d payload).Upholds (Beside d) (Provides d c) (fun _ b => Promise d c b) s := by
  refine Prog.upholds_tryCatch (Prog.upholds_bind ?_)
  refine (provisionForUser_upholds hdistinct hready).imp fun r b hr => ?_
  cases r with
  | error e => exact Prog.upholds_pure fun u hu => .inl (hr.blocked e rfl)
  | ok both =>
    have hfound := hr.found both rfl
    refine Prog.upholds_bind ?_
    refine (onAccountCreated_upholds hbin hr.holder hr.card hfound).imp fun r b' hr' => ?_
    obtain ⟨rfl, hpromise⟩ := hr'
    exact Prog.upholds_pure hpromise

/-- A decision, which leaves the accounts alone. -/
theorem updateRecord_upholds {kycId : Uuid} {f : Signup.KycRecord → Signup.KycRecord}
    {review : Kyc.Review} {Q : Except Error Signup.KycRecord → Branch → Prop}
    (hf : ∀ r, (f r).userId = r.userId)
    (hok : ∀ b o row, Beside d s b → b.office.records.lookup kycId = some row →
      Provides d c b { b with office := o } → Q (.ok (f row)) { b with office := o })
    (herr : ∀ b, Beside d s b → b.holder kycId = none → Q (.error .recordNotFound) b) :
    ((Kyc.updateRecord kycId f review).zoom Branch.officePart).Upholds (Beside d) (Provides d c)
      Q s := by
  rw [Kyc.updateRecord, Prog.zoom_attempt]
  refine Prog.upholds_attempt (fun b row b' hR hb => ?_) fun b e hR hb => ?_
  · cases hrow : b.office.records.lookup kycId with
    | none =>
      simp only [Branch.officePart, hrow, Except.map] at hb
      cases hb
    | some r =>
      simp only [Branch.officePart, hrow, Except.map] at hb
      cases hb
      have hprovides := provides_of_office (d := d) (c := c) (b := b)
        (o := { b.office.setRecords (b.office.records.insert kycId (f r)) with
          reviews := b.office.reviews.insert kycId review }) fun k => by
        show (AList.lookup k (b.office.records.insert kycId (f r))).map _ = _
        rw [Table.lookup_insert_ite]
        split
        · rename_i hk
          rw [hk, Branch.holder, hrow, Option.map_some, Option.map_some, hf]
        · rfl
      exact ⟨hprovides, hok b _ r hR hrow hprovides⟩
  · cases hrow : b.office.records.lookup kycId with
    | none =>
      simp only [Branch.officePart, hrow, Except.map] at hb
      cases hb
      exact ⟨provides_refl d c b, herr b hR (by rw [Branch.holder, hrow, Option.map_none])⟩
    | some r =>
      simp only [Branch.officePart, hrow, Except.map] at hb
      cases hb

/-- Every call provides and keeps its promise, whatever the others do. -/
theorem handle_upholds (hbin : isBin cfg.cardDemoBin = true) (hdistinct : d.checkingId ≠ d.savingsId)
    (hunused : Unused d s) :
    (handle cfg d c).Upholds (Beside d) (Provides d c) (fun _ b => Promise d c b) s := by
  cases c with
  | approve now kycId reviewerUserId =>
    refine Prog.upholds_bind ?_
    rw [Kyc.approve, Prog.zoom_bind]
    refine Prog.upholds_bind (updateRecord_upholds (fun _ => rfl) (fun b o row hR hrow hb => ?_)
      fun b hR hnone => ?_)
    · have hholder : b.holder kycId = some row.userId := by
        rw [Branch.holder, hrow, Option.map_some]
      obtain ⟨hchecking, hsavings, hlimits, hcard⟩ := hR.unused hunused
      exact Prog.upholds_pure (onKycApproved_upholds hbin hdistinct
        ⟨(hb.holder kycId).trans hholder, ⟨hchecking, hsavings, hlimits, hcard⟩⟩)
    · intro u hu
      have hsome : b.holder kycId = some u := hu
      rw [hnone] at hsome
      cases hsome
  | reject now kycId reviewerUserId reason missingFields =>
    refine Prog.upholds_bind (updateRecord_upholds (fun _ => rfl) (fun b o row _ _ _ => ?_)
      fun b _ _ => ?_)
    · exact Prog.upholds_pure fun u hu => by cases hu
    · exact fun u hu => by cases hu

end Calls

/-! ## Whole runs -/

/-- The runs of decisions from `s₀`, thread `i` drawing `draws i`. -/
abbrev KycRun (cfg : Config) (draws : ℕ → Draws) (s₀ : Branch) :
    List (Step Branch KycCall) → Pool Branch Error Unit KycCall → Prop :=
  Run (fun i c => handle cfg (draws i) c) (fun _ => True) s₀

/-- Thread `i` is an approval of a record of the user. -/
def Approval (s₀ : Branch) (P : Pool Branch Error Unit KycCall) (userId : Uuid) (i : ℕ) : Prop :=
  ∃ t, P.threads[i]? = some t ∧ t.call.holder s₀ = some userId

/-- The ids drawn are new. -/
structure FreshIds (draws : ℕ → Draws) (s₀ : Branch) : Prop where
  distinct : ∀ i, (draws i).checkingId ≠ (draws i).savingsId
  unused : ∀ i, Unused (draws i) s₀
  apart : ∀ i j, i ≠ j → Apart (draws i) (draws j)

/-- The first account numbers that thread `i` draws are new: they are two, no account has them at the
start, and no other thread draws one of them first. -/
structure NewNumbers (draws : ℕ → Draws) (s₀ : Branch) (P : Pool Branch Error Unit KycCall) (i : ℕ) :
    Prop where
  two : (draws i).mockAccountNumber .checking 0 ≠ (draws i).mockAccountNumber .savings 0
  free : ∀ a row type, s₀.accounts.lookup a = some row →
    row.mockAccountNumber ≠ (draws i).mockAccountNumber type 0
  own : ∀ j type type', j < P.threads.length → j ≠ i →
    (draws j).mockAccountNumber type' 0 ≠ (draws i).mockAccountNumber type 0

/-- Where the rows come from: they were there, or an approval of a record of their user made them. -/
structure Origin (draws : ℕ → Draws) (s₀ : Branch) (P : Pool Branch Error Unit KycCall)
    (b : Branch) : Prop where
  kept : Kept s₀ b
  account : ∀ a row, b.accounts.lookup a = some row → s₀.accounts.lookup a = some row ∨
    ∃ i, Approval s₀ P row.userId i ∧
      row.mockAccountNumber = (draws i).mockAccountNumber row.type 0 ∧
      ((a = (draws i).checkingId ∧ row.type = .checking ∧ (b.limits.lookup a).isSome) ∨
        (a = (draws i).savingsId ∧ row.type = .savings))
  card : ∀ k row, b.cards.lookup k = some row → s₀.cards.lookup k = some row ∨
    ∃ i u, Approval s₀ P u i ∧ k = (draws i).cardId ∧ b.Owns u row.accountId

section Runs

variable {cfg : Config} {draws : ℕ → Draws} {s₀ : Branch} {tr : List (Step Branch KycCall)}
  {P : Pool Branch Error Unit KycCall}

theorem Kept.owns {b b' : Branch} (h : Kept b b') {u a : Uuid} (howns : b.Owns u a) :
    b'.Owns u a := by
  obtain ⟨row, hrow, huser⟩ := howns
  exact ⟨row, h.accounts a row hrow, huser⟩

theorem Origin.step {b b' : Branch} {i : ℕ} {t : Thread Branch Error Unit KycCall}
    (h : Origin draws s₀ P b) (ht : P.threads[i]? = some t)
    (hprovides : Provides (draws i) t.call b b') : Origin draws s₀ P b' := by
  have happroval : ∀ u, t.call.holder b = some u → Approval s₀ P u i := fun u hu =>
    ⟨t, ht, (h.kept.callHolder t.call).symm.trans hu⟩
  refine ⟨h.kept.trans hprovides.toKept, fun a row hrow => ?_, fun k row hrow => ?_⟩
  · rcases hprovides.account a row hrow with hold | ⟨huser, hnumber, hrest⟩
    · rcases h.account a row hold with hstart | ⟨j, hj, hnumber, ⟨ha, htype, hlimits⟩ | hrest⟩
      · exact .inl hstart
      · obtain ⟨limits, hlimits⟩ := Option.isSome_iff_exists.1 hlimits
        have hkept := Option.isSome_of_eq_some (hprovides.limits a limits hlimits)
        exact .inr ⟨j, hj, hnumber, .inl ⟨ha, htype, hkept⟩⟩
      · exact .inr ⟨j, hj, hnumber, .inr hrest⟩
    · exact .inr ⟨i, happroval _ huser, hnumber, hrest⟩
  · rcases hprovides.card k row hrow with hold | ⟨hk, u, hu, howns⟩
    · rcases h.card k row hold with hstart | ⟨j, u, hj, hk, howns⟩
      · exact .inl hstart
      · exact .inr ⟨j, u, hj, hk, hprovides.owns howns⟩
    · exact .inr ⟨i, u, happroval u hu, hk, hprovides.owns howns⟩

/-- What a run of decisions leaves behind. -/
theorem origin_of_run (hbin : isBin cfg.cardDemoBin = true) (hfresh : FreshIds draws s₀)
    (hrun : KycRun cfg draws s₀ tr P) : Origin draws s₀ P P.state ∧
      ∀ i t, P.threads[i]? = some t → t.rest.result.isSome → Promise (draws i) t.call P.state := by
  obtain ⟨hsteps, hthreads, -⟩ := hrun.upholds (R := fun i => Beside (draws i))
    (G := fun i c => Provides (draws i) c) (Q := fun i c _ b => Promise (draws i) c b)
    (fun i => Beside.refl (draws i)) Beside.trans
    (fun hij h => h.beside (hfresh.apart _ _ hij)) (fun h => h.toKept.promise) hfresh.unused
    Beside.unused fun i c s _ => handle_upholds hbin (hfresh.distinct i)
  refine ⟨?_, fun i t ht hended => ?_⟩
  · have hstart : Origin draws s₀ P s₀ := ⟨.refl s₀, fun _ _ h => .inl h, fun _ _ h => .inl h⟩
    rw [hrun.state_eq]
    refine (hrun.keeps (List.append_nil tr).symm hstart fun late x mid hsplit horigin => ?_).2
    have hx : x ∈ tr := by
      rw [hsplit]
      simp
    obtain ⟨t, ht, hcall⟩ := hrun.thread_of_step hx
    exact horigin.step ht (hcall ▸ hsteps x hx)
  · obtain ⟨r, hr⟩ := Option.isSome_iff_exists.1 hended
    exact (hthreads i t ht).result hr

/-- An approval whose numbers are new is not blocked. -/
theorem Origin.not_blocked {b : Branch} (h : Origin draws s₀ P b) {i : ℕ}
    (hnumbers : NewNumbers draws s₀ P i) : ¬ Blocked (draws i) b := by
  rintro (heq | ⟨a, row, type, hrow, hchecking, hsavings, hnumber⟩)
  · exact hnumbers.two heq
  · rcases h.account a row hrow with hstart | ⟨j, ⟨t, ht, -⟩, hown, hid⟩
    · exact hnumbers.free a row type hstart hnumber
    · by_cases hij : j = i
      · subst hij
        rcases hid with ⟨ha, -⟩ | ⟨ha, -⟩
        · exact hchecking ha
        · exact hsavings ha
      · have hj := (List.getElem?_eq_some_iff.1 ht).1
        exact hnumbers.own j type row.type hj hij (hown.symm.trans hnumber)

/-- Every card of a user who had none is from an approval of the user's record. -/
theorem Origin.card_of {b : Branch} {u k : Uuid} {row : Card} (h : Origin draws s₀ P b)
    (hnone : ∀ a, ¬ s₀.Owns u a)
    (hcards : ∀ k row, s₀.cards.lookup k = some row → ∃ u', s₀.Owns u' row.accountId)
    (hrow : b.cards.lookup k = some row) (howns : b.Owns u row.accountId) :
    ∃ i, Approval s₀ P u i ∧ k = (draws i).cardId := by
  rcases h.card k row hrow with hstart | ⟨i, u', hi, hk, howns'⟩
  · obtain ⟨u', howns'⟩ := hcards k row hstart
    obtain rfl := (h.kept.owns howns').unique howns
    exact absurd howns' (hnone _)
  · obtain rfl := howns'.unique howns
    exact ⟨i, hi, hk⟩

/-- The accounts and the cards of a user who had none, when one thread approves the user's record. -/
theorem Origin.once {b : Branch} {u : Uuid} {i : ℕ} (h : Origin draws s₀ P b)
    (hnone : ∀ a, ¬ s₀.Owns u a)
    (hcards : ∀ k row, s₀.cards.lookup k = some row → ∃ u', s₀.Owns u' row.accountId)
    (hserved : Served (draws i) u b) (honly : ∀ j, Approval s₀ P u j → j = i) :
    ProvisionedOnce u b := by
  have haccount : ∀ {a type}, b.Has a u type →
      (a = (draws i).checkingId ∧ type = .checking ∧ (b.limits.lookup a).isSome) ∨
        (a = (draws i).savingsId ∧ type = .savings) := by
    rintro a type ⟨row, hrow, rfl, rfl⟩
    rcases h.account a row hrow with hstart | ⟨j, hj, -, hid⟩
    · exact absurd ⟨row, hstart, rfl⟩ (hnone a)
    · obtain rfl := honly j hj
      exact hid
  have hchecking : ∀ {a}, b.Has a u .checking →
      a = (draws i).checkingId ∧ (b.limits.lookup a).isSome := by
    intro a ha
    rcases haccount ha with ⟨heq, -, hlimits⟩ | ⟨-, htype⟩
    · exact ⟨heq, hlimits⟩
    · cases htype
  have hsavings : ∀ {a}, b.Has a u .savings → a = (draws i).savingsId := by
    intro a ha
    rcases haccount ha with ⟨-, htype, -⟩ | ⟨heq, -⟩
    · cases htype
    · exact heq
  obtain ⟨card, savings, hcard, hfound⟩ := hserved
  obtain ⟨hc, hlimits⟩ := hchecking hfound.checking
  obtain ⟨limits, hlimits⟩ := Option.isSome_iff_exists.1 hlimits
  have hs := hsavings hfound.savings
  refine ⟨?_, ?_, ?_, ?_⟩
  · exact accountsOf_eq_one.2 ⟨_, hfound.checking, fun a ha => (hchecking ha).1.trans hc.symm⟩
  · exact accountsOf_eq_one.2 ⟨_, hfound.savings, fun a ha => (hsavings ha).trans hs.symm⟩
  · exact limitsOf_eq_one.2 ⟨_, limits, hlimits, hfound.checking,
      fun a _ _ ha => (hchecking ha).1.trans hc.symm⟩
  · obtain ⟨row, hrow, huser, -⟩ := hfound.checking
    refine cardsOf_eq_one.2 ⟨_, card, hcard, ⟨row, hrow, huser⟩, fun k row' hrow' howns => ?_⟩
    obtain ⟨j, hj, rfl⟩ := h.card_of hnone hcards hrow' howns
    rw [honly j hj]

/-- **Provisioning exactly once.** When every handler of a run has finished, a user who had no account
at the start has one checking account, one savings account, the limits of the checking account and one
card if and only if one approval of the user's record was made. -/
theorem provisioned_once (cfg : Config) (hbin : isBin cfg.cardDemoBin = true) (draws : ℕ → Draws)
    (s₀ : Branch) (hfresh : FreshIds draws s₀)
    (hcards : ∀ k row, s₀.cards.lookup k = some row → ∃ u, s₀.Owns u row.accountId)
    (userId : Uuid) (hnone : ∀ a, ¬ s₀.Owns userId a) (tr : List (Step Branch KycCall))
    (P : Pool Branch Error Unit KycCall) (hrun : KycRun cfg draws s₀ tr P)
    (hfinished : ∀ t ∈ P.threads, t.rest.result.isSome)
    (hnumbers : ∀ i, Approval s₀ P userId i → NewNumbers draws s₀ P i) :
    ProvisionedOnce userId P.state ↔ ∃! i, Approval s₀ P userId i := by
  obtain ⟨horigin, hpromise⟩ := origin_of_run hbin hfresh hrun
  have hserved : ∀ i, Approval s₀ P userId i → Served (draws i) userId P.state := by
    rintro i ⟨t, ht, hu⟩
    have hended := hfinished t (List.mem_of_getElem? ht)
    rcases hpromise i t ht hended userId ((horigin.kept.callHolder _).trans hu) with hblocked | hserved
    · exact absurd hblocked (horigin.not_blocked (hnumbers i ⟨t, ht, hu⟩))
    · exact hserved
  constructor
  · -- two approvals would have issued two cards
    intro honce
    obtain ⟨k, row, hrow, howns, hunique⟩ := cardsOf_eq_one.1 honce.card
    obtain ⟨i, hi, rfl⟩ := horigin.card_of hnone hcards hrow howns
    refine ⟨i, hi, fun j hj => ?_⟩
    by_contra hne
    obtain ⟨card, savings, hcard, hfound⟩ := hserved j hj
    obtain ⟨account, haccount, huser, -⟩ := hfound.checking
    exact (hfresh.apart j i hne).card (hunique _ card hcard ⟨account, haccount, huser⟩)
  · rintro ⟨i, hi, honly⟩
    exact horigin.once hnone hcards (hserved i hi) honly

end Runs

/-! ## One approval, and two -/

theorem approval_iff {s₀ : Branch} {P : Pool Branch Error Unit KycCall} {u : Uuid} {i : ℕ} :
    Approval s₀ P u i ↔ (P.threads.map fun t => t.call.holder s₀)[i]? = some (some u) := by
  rw [List.getElem?_map, Option.map_eq_some_iff]
  exact Iff.rfl

/-- Thread `i` draws the numbers from `4 * i`. -/
def sampleDraws (i : ℕ) : Draws where
  checkingId := 4 * i
  savingsId := 4 * i + 1
  cardId := i
  mockAccountNumber
    | .checking, attempt => JsDate.pad 12 (10 * i + attempt)
    | .savings, attempt => JsDate.pad 12 (10 * i + 5 + attempt)
  panBody := [1, 2, 3, 4, 5, 6, 7, 8, 9]
  openedAt := i + 1
  announcedAt := i + 1
  issuedAt := i + 2

/-- The record 7 of user 1 is pending. -/
def sampleBranch : Branch where
  office :=
    { registry :=
        { db := { Signup.sampleRegistry.db with
            kycRecords := (∅ : Table Uuid Signup.KycRecord).insert 7 ⟨1, .pending, []⟩ }
          sent := [] }
      reviews := ∅ }
  accounts := ∅
  limits := ∅
  cards := ∅

theorem freshIds_sample : FreshIds sampleDraws sampleBranch := by
  refine ⟨fun i => ?_, fun i => ⟨rfl, rfl, rfl, rfl⟩, fun i j hij => ⟨fun a ha => ?_, hij⟩⟩
  · simp [sampleDraws]
  · have hne : ∀ a : ℕ, a = 4 * i ∨ a = 4 * i + 1 → a ≠ 4 * j ∧ a ≠ 4 * j + 1 := by
      omega
    exact hne a ha

/-- The calls, each carried out before the next. -/
def sampleRun (calls : List KycCall) :
    List (Step Branch KycCall) × Pool Branch Error Unit KycCall :=
  exec (fun i c => handle {} (sampleDraws i) c) sampleBranch
    (calls.zipIdx.map fun c => Choice.call c.1 :: List.replicate 5 (Choice.step c.2)).flatten

theorem sampleRun_run (calls : List KycCall) :
    KycRun {} sampleDraws sampleBranch (sampleRun calls).1 (sampleRun calls).2 :=
  exec_run _ fun _ _ => trivial

/-- The record is rejected, then approved. -/
def sampleApproved : List (Step Branch KycCall) × Pool Branch Error Unit KycCall :=
  sampleRun [.reject 0 7 2 "blurred" ["idFront"], .approve 1 7 2]

theorem provisioned_once_sample : ProvisionedOnce 1 sampleApproved.2.state := by
  have hcalls : (sampleApproved.2.threads.map fun t => t.call.holder sampleBranch) =
      [none, some 1] := by
    decide +kernel
  have happroval : ∀ i, Approval sampleBranch sampleApproved.2 1 i ↔ i = 1 := by
    intro i
    rw [approval_iff, hcalls]
    match i with
    | 0 => simp
    | 1 => simp
    | i + 2 => simp
  refine (provisioned_once {} (by decide +kernel) sampleDraws sampleBranch freshIds_sample
    (fun k row hrow => by cases hrow) 1 (fun a ⟨row, hrow, _⟩ => by cases hrow)
    sampleApproved.1 sampleApproved.2 (sampleRun_run _) (by decide +kernel) fun i hi => ?_).2
    ⟨1, (happroval 1).2 rfl, fun i hi => ?_⟩
  · obtain rfl := (happroval i).1 hi
    refine ⟨by decide +kernel, fun a row type hrow => ?_, fun j type type' hj hne => ?_⟩
    · cases hrow
    · have hlength : sampleApproved.2.threads.length = 2 := by
        decide +kernel
      obtain rfl : j = 0 := by omega
      cases type <;> cases type' <;> decide +kernel
  · exact (happroval i).1 hi

/-- The record is approved twice. -/
def sampleTwice : List (Step Branch KycCall) × Pool Branch Error Unit KycCall :=
  sampleRun [.approve 0 7 2, .approve 1 7 2]

/-- The second approval issues a second card. -/
theorem second_card : KycRun {} sampleDraws sampleBranch sampleTwice.1 sampleTwice.2 ∧
    (∀ t ∈ sampleTwice.2.threads, t.rest.result.isSome) ∧
    ¬ ProvisionedOnce 1 sampleTwice.2.state := by
  refine ⟨sampleRun_run _, by decide +kernel, fun h => ?_⟩
  have htwo : sampleTwice.2.state.cardsOf 1 = 2 := by
    decide +kernel
  rw [h.card] at htwo
  cases htwo

end BankDemo.Accounts
