import BankDemo.Properties.Pagination

/-!
# What the list shows and what was asked for

The statement behind the customer's list selects and sorts by the columns of the transactions, while
the items show the fields with an override applied. Both say the same of a request exactly if no
override of a visible transaction makes a difference to its filters or to the order
(`listed_as_shown_iff`).
-/

namespace BankDemo.Transactions

open JsDate Keyset

/-- A transaction as the list shows it, apart from the name of the other side. -/
def shown (t : TransactionRow) : TransactionDto := toTransactionDto t none

/-- The transaction as it is stored. -/
def stored (t : TransactionRow) : TransactionDto := toTransactionDto { t with override := none } none

/-- The instant that the list shows. -/
def shownAt (t : TransactionRow) : Instant :=
  (t.override.bind TransactionOverride.overrideOccurredAt).getD t.row.occurredAt

section

variable (contains : String → String → Bool) (p : Parsers)

/-- An item is what the filters of a request ask for. -/
structure Satisfies (query : ListTransactionsDto) (item : TransactionDto) : Prop where
  status : ∀ s, query.status = some s → item.status = s
  category : ∀ cs, query.categories = some cs → cs ≠ [] → item.category ∈ cs
  from_ : ∀ s d t, query.from_ = some s → s ≠ "" → p.date s = some d →
    item.occurredAt = toISOString t → d ≤ t
  to_ : ∀ s d t, query.to_ = some s → s ≠ "" → p.date s = some d →
    item.occurredAt = toISOString t → t ≤ d
  text : ∀ q, query.q = some q → q ≠ "" → contains item.description q = true ∨
    ∃ m, item.merchant = some m ∧ contains m.name q = true

/-- A transaction of the accounts that a request is about, which is not hidden. -/
structure Visible (db : Db) (userId : Uuid) (query : ListTransactionsDto) (t : TransactionRow) :
    Prop where
  account : ∃ a, db.accounts.lookup t.row.accountId = some a ∧ a.userId = userId
  chosen : ∀ id, query.accountId = some id → t.row.accountId = id
  unhidden : isHiddenByOverride t = false

/-- The items in the order of the instants that they show. -/
def Latest (items : List TransactionDto) : Prop :=
  items.Pairwise fun a b => ∀ x y, a.occurredAt = toISOString x → b.occurredAt = toISOString y → y ≤ x

variable (merchantOf : Uuid → Option Merchant)
variable (counterparties : Db → List TransactionRow → Uuid → Option String)

/-- What is listed is what is asked for, as it is shown: reading from cursor to cursor. -/
structure ListedAsShown (cfg : PageConfig) (db : Db) (userId : Uuid) (query : ListTransactionsDto)
    (pages : List (List TransactionDto)) : Prop where
  reading : Pages (readPage merchantOf contains counterparties cfg p db userId query) none pages
  satisfies : ∀ item ∈ pages.flatten, Satisfies contains p query item
  complete : ∀ t ∈ transactionRows merchantOf db, Visible db userId query t →
    Satisfies contains p query (shown t) → ∃ page ∈ pages, ∃ item ∈ page, item.id = t.id
  latest : Latest pages.flatten

/-- Overrides make no difference to what a request asks for. -/
structure Unaltered (db : Db) (userId : Uuid) (query : ListTransactionsDto) : Prop where
  filters : ∀ t ∈ transactionRows merchantOf db, Visible db userId query t →
    (Satisfies contains p query (shown t) ↔ Satisfies contains p query (stored t))
  order : ∀ t ∈ transactionRows merchantOf db, ∀ u ∈ transactionRows merchantOf db,
    Visible db userId query t → Visible db userId query u →
    Satisfies contains p query (stored t) → Satisfies contains p query (stored u) →
    rowKey u < rowKey t → shownAt u ≤ shownAt t

variable {contains p}

theorem satisfies_name {query : ListTransactionsDto} {t : TransactionRow} {name : Option String} :
    Satisfies contains p query (toTransactionDto t name) ↔ Satisfies contains p query (shown t) :=
  ⟨fun h => ⟨h.status, h.category, h.from_, h.to_, h.text⟩,
    fun h => ⟨h.status, h.category, h.from_, h.to_, h.text⟩⟩

/-- The statement selects by what is stored. -/
theorem matches_iff {db : Db} {userId : Uuid} {query : ListTransactionsDto} {t : TransactionRow} :
    Matches contains p db userId query t ∧ isHiddenByOverride t = false ↔
      Visible db userId query t ∧ Satisfies contains p query (stored t) := by
  constructor
  · rintro ⟨h, hunhidden⟩
    refine ⟨⟨h.account, h.chosen, hunhidden⟩, h.status, h.category, ?_, ?_, h.text⟩
    · intro s d t' hs hne hd heq
      rw [← toISOString_injective heq]
      exact h.from_ s d hs hne hd
    · intro s d t' hs hne hd heq
      rw [← toISOString_injective heq]
      exact h.to_ s d hs hne hd
  · rintro ⟨hvisible, h⟩
    refine ⟨⟨hvisible.account, hvisible.chosen, h.status, h.category, ?_, ?_, h.text⟩,
      hvisible.unhidden⟩
    · exact fun s d hs hne hd => h.from_ s d _ hs hne hd rfl
    · exact fun s d hs hne hd => h.to_ s d _ hs hne hd rfl

end

/-! ## Lists that correspond -/

section

variable {α β : Type} {R : α → β → Prop} {l : List α} {l' : List β}

theorem forall_mem_iff {P : α → Prop} {Q : β → Prop} (hPQ : ∀ a b, R a b → (P a ↔ Q b))
    (h : List.Forall₂ R l l') : (∀ a ∈ l, P a) ↔ ∀ b ∈ l', Q b := by
  induction h with
  | nil => simp
  | cons hab _ ih => simp [hPQ _ _ hab, ih]

theorem exists_mem_iff {P : α → Prop} {Q : β → Prop} (hPQ : ∀ a b, R a b → (P a ↔ Q b))
    (h : List.Forall₂ R l l') : (∃ a ∈ l, P a) ↔ ∃ b ∈ l', Q b := by
  induction h with
  | nil => simp
  | cons hab _ ih => simp [hPQ _ _ hab, ih]

theorem pairwise_iff {S : α → α → Prop} {T : β → β → Prop}
    (hST : ∀ a b a' b', R a b → R a' b' → (S a a' ↔ T b b')) (h : List.Forall₂ R l l') :
    l.Pairwise S ↔ l'.Pairwise T := by
  induction h with
  | nil => simp
  | cons hab hrest ih =>
    rw [List.pairwise_cons, List.pairwise_cons, ih,
      forall_mem_iff (fun a' b' => hST _ _ a' b' hab) hrest]

end

/-! ## The condition -/

section

variable {contains : String → String → Bool} {p : Parsers}
variable {merchantOf : Uuid → Option Merchant}
variable {counterparties : Db → List TransactionRow → Uuid → Option String}

/-- A transaction is known by its id. -/
theorem eq_of_id {db : Db} {t u : TransactionRow} (ht : t ∈ transactionRows merchantOf db)
    (hu : u ∈ transactionRows merchantOf db) (hid : t.id = u.id) : t = u := by
  have htrow := (mem_transactionRows merchantOf).1 ht
  have hurow := (mem_transactionRows merchantOf).1 hu
  refine eq_of_rowKey merchantOf ht hu ?_
  have hrow : t.row = u.row := by
    have hlookup := htrow.1
    rw [hid, hurow.1] at hlookup
    exact (Option.some.inj hlookup).symm
  rw [rowKey, rowKey, hrow, hid]

/-- What was read, by the transactions behind it. -/
theorem listedAsShown_iff {cfg : PageConfig} {db : Db} {userId : Uuid} {query : ListTransactionsDto}
    {pages : List (List TransactionDto)} {rows : List TransactionRow}
    (hreading : Pages (readPage merchantOf contains counterparties cfg p db userId query) none pages)
    (hdesc : Descending rowKey rows)
    (hrows : ∀ t, t ∈ rows ↔ t ∈ transactionRows merchantOf db ∧ Visible db userId query t ∧
      Satisfies contains p query (stored t))
    (hitems : List.Forall₂ (fun dto t => ∃ name, dto = toTransactionDto t name) pages.flatten rows) :
    ListedAsShown contains p merchantOf counterparties cfg db userId query pages ↔
      Unaltered contains p merchantOf db userId query := by
  have hsatisfies : (∀ item ∈ pages.flatten, Satisfies contains p query item) ↔
      ∀ t ∈ rows, Satisfies contains p query (shown t) := by
    refine forall_mem_iff (fun item t => ?_) hitems
    rintro ⟨name, rfl⟩
    exact satisfies_name
  have hlisted : ∀ t ∈ transactionRows merchantOf db,
      (∃ page ∈ pages, ∃ item ∈ page, item.id = t.id) ↔ t ∈ rows := by
    intro t ht
    have hflat : (∃ page ∈ pages, ∃ item ∈ page, item.id = t.id) ↔
        ∃ item ∈ pages.flatten, item.id = t.id := by
      simp only [List.mem_flatten]
      constructor
      · rintro ⟨page, hpage, item, hitem, hid⟩
        exact ⟨item, ⟨page, hpage, hitem⟩, hid⟩
      · rintro ⟨item, ⟨page, hpage, hitem⟩, hid⟩
        exact ⟨page, hpage, item, hitem, hid⟩
    have hids : (∃ item ∈ pages.flatten, item.id = t.id) ↔ ∃ u ∈ rows, u.id = t.id := by
      refine exists_mem_iff (fun item u => ?_) hitems
      rintro ⟨name, rfl⟩
      exact Iff.rfl
    rw [hflat, hids]
    constructor
    · rintro ⟨u, hu, hid⟩
      rwa [← eq_of_id ((hrows u).1 hu).1 ht hid]
    · exact fun h => ⟨t, h, rfl⟩
  have hlatest : Latest pages.flatten ↔
      ∀ t ∈ rows, ∀ u ∈ rows, rowKey u < rowKey t → shownAt u ≤ shownAt t := by
    rw [← hdesc.pairwise_iff]
    refine pairwise_iff (fun item t item' u => ?_) hitems
    rintro ⟨name, rfl⟩ ⟨name', rfl⟩
    constructor
    · exact fun h => h _ _ rfl rfl
    · intro h x y hx hy
      rw [← toISOString_injective hx, ← toISOString_injective hy]
      exact h
  constructor
  · intro h
    constructor
    · intro t ht hvisible
      constructor
      · intro hshown
        exact ((hrows t).1 ((hlisted t ht).1 (h.complete t ht hvisible hshown))).2.2
      · intro hstored
        exact hsatisfies.1 h.satisfies t ((hrows t).2 ⟨ht, hvisible, hstored⟩)
    · intro t ht u hu hvisible hvisible' hstored hstored' hlt
      exact hlatest.1 h.latest t ((hrows t).2 ⟨ht, hvisible, hstored⟩) u
        ((hrows u).2 ⟨hu, hvisible', hstored'⟩) hlt
  · intro h
    constructor
    · exact hreading
    · refine hsatisfies.2 fun t ht => ?_
      obtain ⟨hmem, hvisible, hstored⟩ := (hrows t).1 ht
      exact (h.filters t hmem hvisible).2 hstored
    · intro t ht hvisible hshown
      exact (hlisted t ht).2 ((hrows t).2 ⟨ht, hvisible, (h.filters t ht hvisible).1 hshown⟩)
    · refine hlatest.2 fun t ht u hu hlt => ?_
      obtain ⟨hmem, hvisible, hstored⟩ := (hrows t).1 ht
      obtain ⟨hmem', hvisible', hstored'⟩ := (hrows u).1 hu
      exact h.order t hmem u hmem' hvisible hvisible' hstored hstored' hlt

/-- The transactions behind what is read. -/
theorem pages_of_visible (cfg : PageConfig) (db : Db) (userId : Uuid) (query : ListTransactionsDto)
    (hlimit : 1 ≤ pageLimit cfg query)
    (hreads : ∀ id t, db.transactions.lookup id = some t → p.Reads t.occurredAt id)
    (hfirst : ∃ page, list merchantOf contains counterparties cfg p db userId
      { query with cursor := none } = .ok page) :
    ∃ rows pages, Descending rowKey rows ∧
      (∀ t, t ∈ rows ↔ t ∈ transactionRows merchantOf db ∧ Visible db userId query t ∧
        Satisfies contains p query (stored t)) ∧
      Pages (readPage merchantOf contains counterparties cfg p db userId query) none pages ∧
      List.Forall₂ (fun dto t => ∃ name, dto = toTransactionDto t name) pages.flatten rows := by
  obtain ⟨rows, pages, hdesc, hrows, hpages, hitems⟩ :=
    pages_of_request merchantOf contains counterparties cfg p db userId query hlimit hreads hfirst
  refine ⟨rows.filter fun t => !isHiddenByOverride t, pages, hdesc.filter _, fun t => ?_, hpages,
    hitems⟩
  rw [List.mem_filter, hrows, and_assoc, Bool.not_eq_true', matches_iff]

section

variable (cfg : PageConfig) (db : Db) (userId : Uuid) (query : ListTransactionsDto)
  (hlimit : 1 ≤ pageLimit cfg query)
  (hreads : ∀ id t, db.transactions.lookup id = some t → p.Reads t.occurredAt id)
  (hfirst : ∃ page, list merchantOf contains counterparties cfg p db userId
    { query with cursor := none } = .ok page)

include hlimit hreads hfirst

theorem unaltered_of_listed (h : ∃ pages,
    ListedAsShown contains p merchantOf counterparties cfg db userId query pages) :
    Unaltered contains p merchantOf db userId query := by
  obtain ⟨rows, pages, hdesc, hrows, hpages, hitems⟩ :=
    pages_of_visible cfg db userId query hlimit hreads hfirst
  obtain ⟨pages', h⟩ := h
  obtain rfl := h.reading.unique hpages
  exact (listedAsShown_iff hpages hdesc hrows hitems).1 h

/-- **What is listed is what is asked for as it is shown** exactly if no override of a visible
transaction makes a difference to the filters or to the order. -/
theorem listed_as_shown_iff :
    (∃ pages, ListedAsShown contains p merchantOf counterparties cfg db userId query pages) ↔
      Unaltered contains p merchantOf db userId query := by
  constructor
  · exact unaltered_of_listed cfg db userId query hlimit hreads hfirst
  · intro h
    obtain ⟨rows, pages, hdesc, hrows, hpages, hitems⟩ :=
      pages_of_visible cfg db userId query hlimit hreads hfirst
    exact ⟨pages, (listedAsShown_iff hpages hdesc hrows hitems).2 h⟩

end

end

/-! ## A row that an administrator settled -/

/-- Ann's posted transactions, one of them hidden. -/
theorem listed_as_shown_posted : ∃ pages, ListedAsShown (fun s t => s == t) sampleParsers
    (fun _ => none) (fun _ _ _ => none) {} sampleListDb 1
    { limit := some 1, status := some .posted } pages := by
  have hplain : ∀ t ∈ transactionRows (fun _ => none) sampleListDb,
      isHiddenByOverride t = true ∨ t.override = none := by decide +kernel
  have hinstant : ∀ t ∈ transactionRows (fun _ => none) sampleListDb,
      shownAt t = 1775037600000 := by decide +kernel
  have hreads : ∀ id t, sampleListDb.transactions.lookup id = some t →
      sampleParsers.Reads t.occurredAt id := reads_of_entries (by decide +kernel)
  apply (listed_as_shown_iff {} sampleListDb 1 _ (by decide) hreads ⟨_, rfl⟩).2
  constructor
  · intro t ht hvisible
    rcases hplain t ht with hhidden | hnone
    · rw [hvisible.unhidden] at hhidden
      cases hhidden
    · rw [shown, stored, ← hnone]
  · intro t ht u hu _ _ _ _ _
    rw [hinstant t ht, hinstant u hu]

/-- Ann's account with a pending transaction, which an override shows as settled. -/
def sampleSettledDb : Db :=
  let row : Transaction := ⟨10, .cardPurchase, .pending, -500, "Coffee", .dining, none,
    1775037600000, none, none⟩
  { sampleDb with
    transactions := (∅ : Table Uuid Transaction).insert 101 row
    overrides := (∅ : Table Uuid TransactionOverride).insert 101
      ⟨none, none, none, none, some .settled, none, 9, none⟩ }

/-- Asked for what is pending, the list shows what is posted. -/
theorem pending_shown_posted : ¬ ∃ pages, ListedAsShown (fun s t => s == t) sampleParsers
    (fun _ => none) (fun _ _ _ => none) {} sampleSettledDb 1 { status := some .pending } pages := by
  intro h
  have hreads : ∀ id t, sampleSettledDb.transactions.lookup id = some t →
      sampleParsers.Reads t.occurredAt id := reads_of_entries (by decide +kernel)
  have hunaltered := unaltered_of_listed {} sampleSettledDb 1 _ (by decide) hreads ⟨_, rfl⟩ h
  let coffee : TransactionRow := ⟨101, ⟨10, .cardPurchase, .pending, -500, "Coffee", .dining, none,
    1775037600000, none, none⟩, none, some ⟨none, none, none, none, some .settled, none, 9, none⟩⟩
  have hvisible : Visible sampleSettledDb 1 { status := some .pending } coffee :=
    ⟨⟨_, rfl, rfl⟩, by simp, rfl⟩
  have hstored : Satisfies (fun s t => s == t) sampleParsers { status := some .pending }
      (stored coffee) :=
    ⟨fun s hs => Option.some.inj hs, by simp, by simp, by simp, by simp⟩
  have hshown := (hunaltered.filters coffee (by decide +kernel) hvisible).2 hstored
  exact absurd (hshown.status .pending rfl) (by decide)

end BankDemo.Transactions
