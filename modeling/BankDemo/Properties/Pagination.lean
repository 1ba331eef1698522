import BankDemo.System.Calls
import BankDemo.Transactions.Service
import BankDemo.Foundations.Keyset
import Mathlib.Data.Prod.Lex

/-!
# Pages of transactions

Reading the customer's list from cursor to cursor ends, and the pages together are the transactions
that match the request, less the hidden ones, from the latest to the earliest (`pages_exact`). The
order of the statement is lexicographic in the instant and the id (`rowKey`), no two transactions
share a key, and the `AND` of a cursor asks for smaller keys: this is keyset pagination. A page that
consists of hidden rows is empty and still has a cursor.
-/

namespace BankDemo.Transactions

open JsDate UuidText Keyset

/-- What the list is ordered by. -/
def rowKey (t : TransactionRow) : ℤ ×ₗ ℕ := toLex (t.row.occurredAt, t.id)

theorem rowKey_lt {a b : TransactionRow} : rowKey a < rowKey b ↔
    a.row.occurredAt < b.row.occurredAt ∨ a.row.occurredAt = b.row.occurredAt ∧ a.id < b.id :=
  Prod.Lex.toLex_lt_toLex

theorem rowKey_le {a b : TransactionRow} : rowKey a ≤ rowKey b ↔
    a.row.occurredAt < b.row.occurredAt ∨ a.row.occurredAt = b.row.occurredAt ∧ a.id ≤ b.id :=
  Prod.Lex.toLex_le_toLex

theorem listOrder_iff {a b : TransactionRow} : listOrder a b = true ↔ rowKey b ≤ rowKey a := by
  rw [rowKey_le, @eq_comm _ b.row.occurredAt]
  simp only [listOrder, Bool.or_eq_true, Bool.and_eq_true, decide_eq_true_eq, beq_iff_eq]

/-- The `AND` of a row's cursor asks for smaller keys. -/
theorem afterCursor_some (x t : TransactionRow) :
    afterCursor (some (x.row.occurredAt, x.id)) t = decide (rowKey t < rowKey x) := by
  rw [Bool.eq_iff_iff, decide_eq_true_iff, rowKey_lt]
  simp [afterCursor]

section

variable (merchantOf : Uuid → Option Merchant) (contains : String → String → Bool)
variable (counterparties : Db → List TransactionRow → Uuid → Option String)

/-- The rows of the table. -/
theorem mem_transactionRows {db : Db} {t : TransactionRow} :
    t ∈ transactionRows merchantOf db ↔ db.transactions.lookup t.id = some t.row ∧
      t.merchant = merchantOf t.id ∧ t.override = db.overrides.lookup t.id := by
  simp only [transactionRows, List.mem_map]
  constructor
  · rintro ⟨e, he, rfl⟩
    exact ⟨AList.mem_lookup_iff.mpr he, rfl, rfl⟩
  · rintro ⟨hrow, hmerchant, hoverride⟩
    refine ⟨⟨t.id, t.row⟩, AList.mem_lookup_iff.mp hrow, ?_⟩
    rw [← hmerchant, ← hoverride]

/-- No two rows share a key. -/
theorem eq_of_rowKey {db : Db} {a b : TransactionRow} (ha : a ∈ transactionRows merchantOf db)
    (hb : b ∈ transactionRows merchantOf db) (h : rowKey a = rowKey b) : a = b := by
  have hid : a.id = b.id := congrArg (fun k => (ofLex k).2) h
  obtain ⟨ha, ham, hao⟩ := (mem_transactionRows merchantOf).mp ha
  obtain ⟨hb, hbm, hbo⟩ := (mem_transactionRows merchantOf).mp hb
  cases a
  cases b
  simp only at hid ha hb ham hbm hao hbo
  subst hid
  rw [ha] at hb
  rw [Option.some.inj hb, ham, hbm, hao, hbo]

theorem nodup_transactionRows (db : Db) : (transactionRows merchantOf db).Nodup := by
  refine List.Nodup.map_on (fun e he e' he' h => ?_) (List.NodupKeys.nodup db.transactions.nodupKeys)
  simp only [TransactionRow.mk.injEq] at h
  cases e
  cases e'
  simp_all

/-- The matching rows in the order of the list. -/
def ordered (db : Db) (f : ListFilters) : List TransactionRow :=
  ((transactionRows merchantOf db).filter fun t => matchesFilters contains f t).mergeSort listOrder

theorem mem_ordered {db : Db} {f : ListFilters} {t : TransactionRow} :
    t ∈ ordered merchantOf contains db f ↔
      t ∈ transactionRows merchantOf db ∧ matchesFilters contains f t = true := by
  rw [ordered, (List.mergeSort_perm _ _).mem_iff, List.mem_filter]

/-- Sorting by the statement's order. -/
theorem pairwise_listOrder (l : List TransactionRow) :
    (l.mergeSort listOrder).Pairwise fun a b => listOrder a b = true := by
  refine List.pairwise_mergeSort (fun a b c hab hbc => ?_) (fun a b => ?_) l
  · rw [listOrder_iff] at *
    exact hbc.trans hab
  · rw [Bool.or_eq_true, listOrder_iff, listOrder_iff]
    exact le_total _ _

theorem ordered_descending (db : Db) (f : ListFilters) :
    Descending rowKey (ordered merchantOf contains db f) := by
  have hsorted := pairwise_listOrder
    ((transactionRows merchantOf db).filter fun t => matchesFilters contains f t)
  have hnodup : (ordered merchantOf contains db f).Nodup :=
    (List.mergeSort_perm _ _).nodup_iff.mpr ((nodup_transactionRows merchantOf db).filter _)
  refine (hsorted.and hnodup).imp_of_mem fun {a b} ha hb hab => ?_
  refine lt_of_le_of_ne (listOrder_iff.mp hab.1) fun hkey => hab.2 ?_
  exact eq_of_rowKey merchantOf ((mem_ordered ..).mp ha).1 ((mem_ordered ..).mp hb).1 hkey.symm

/-- Rows after a cursor can be sorted before they are selected. -/
theorem sort_filter (db : Db) (f : ListFilters) (p : TransactionRow → Bool) :
    ((transactionRows merchantOf db).filter fun t =>
      matchesFilters contains f t && p t).mergeSort listOrder =
      (ordered merchantOf contains db f).filter p := by
  have hperm : List.Perm (((transactionRows merchantOf db).filter fun t =>
      matchesFilters contains f t && p t).mergeSort listOrder)
      ((ordered merchantOf contains db f).filter p) := by
    refine (List.mergeSort_perm _ _).trans ?_
    have hfilter := (List.mergeSort_perm ((transactionRows merchantOf db).filter fun t =>
      matchesFilters contains f t) listOrder).symm.filter p
    rw [List.filter_filter] at hfilter
    simpa only [ordered, Bool.and_comm] using hfilter
  refine List.Perm.eq_of_pairwise (fun a b ha hb hab hba => ?_) (pairwise_listOrder _)
    ((pairwise_listOrder _).filter p) hperm
  have hb := List.mem_of_mem_filter hb
  have ha := List.mem_of_mem_filter (hperm.mem_iff.mp ha)
  exact eq_of_rowKey merchantOf ((mem_ordered ..).mp ha).1 ((mem_ordered ..).mp hb).1
    (le_antisymm (listOrder_iff.mp hba) (listOrder_iff.mp hab))

/-- The repository gives the first of what comes after the cursor's row, and one more. -/
theorem findTransactions_eq (db : Db) (f : ListFilters) (c : Option TransactionRow)
    (hc : f.cursor = c.map fun x => (x.row.occurredAt, x.id)) :
    findTransactions merchantOf contains db f =
      (rest rowKey (ordered merchantOf contains db f) c).take (f.limit + 1) := by
  rw [findTransactions, sort_filter, hc]
  congr 1
  cases c with
  | none => exact List.filter_eq_self.mpr fun t _ => rfl
  | some x => exact List.filter_congr fun t _ => afterCursor_some x t

/-- The items of a page of rows. -/
def pageItems (db : Db) (rows : List TransactionRow) : List TransactionDto :=
  (rows.filter fun r => !isHiddenByOverride r).map fun r =>
    toTransactionDto r (counterparties db (rows.filter fun r => !isHiddenByOverride r) r.id)

/-- The text of a row's cursor. -/
def rowCursor (t : TransactionRow) : String := encodeCursor (cursorOf t.row.occurredAt t.id)

/-- The page of one row more than the limit. -/
theorem toPage_take (db : Db) (n : ℕ) (l : List TransactionRow) :
    toPage counterparties db n (l.take (n + 1)) =
      ⟨pageItems counterparties db (l.take n), (next l n).map rowCursor⟩ := by
  by_cases hmore : n < l.length
  · have hlen : n < (l.take (n + 1)).length := by
      rw [List.length_take]
      omega
    have htake : (l.take (n + 1)).take n = l.take n := by rw [List.take_take]; congr 1; omega
    simp only [toPage, if_pos hlen, htake, next, if_pos hmore, pageItems]
    rfl
  · have hlen : ¬ n < (l.take (n + 1)).length := by
      rw [List.length_take]
      omega
    have htake : l.take (n + 1) = l.take n := by
      rw [List.take_of_length_le (by omega), List.take_of_length_le (by omega)]
    rw [htake] at hlen ⊢
    simp only [toPage, if_neg hlen, next, if_neg hmore, pageItems]
    rfl

/-- A row's cursor is read back as what the row is ordered by. -/
theorem queryCursor_rowCursor {p : Parsers} {t : TransactionRow}
    (h : p.Reads t.row.occurredAt t.id) :
    queryCursor p (some (rowCursor t)) = some (t.row.occurredAt, t.id) := by
  have hne : rowCursor t ≠ "" := fun hempty => by
    have hlen := length_encodeCursor (cursorOf t.row.occurredAt t.id)
    rw [rowCursor] at hempty
    rw [hempty] at hlen
    simp at hlen
  unfold queryCursor
  split
  · rename_i h'
    cases h'
  · rename_i h'
    exact (hne (Option.some.inj h')).elim
  · rename_i h'
    obtain rfl := Option.some.inj h'
    rw [rowCursor, decodeCursor_encodeCursor h, Option.bind_some, cursorOf, h.date,
      parse_uuidText, Option.map_some]

/-- A transaction is what a user's request asks for. -/
structure Matches (p : Parsers) (db : Db) (userId : Uuid) (query : ListTransactionsDto)
    (t : TransactionRow) : Prop where
  account : ∃ a, db.accounts.lookup t.row.accountId = some a ∧ a.userId = userId
  chosen : ∀ id, query.accountId = some id → t.row.accountId = id
  status : ∀ s, query.status = some s → t.row.status = s
  category : ∀ cs, query.categories = some cs → cs ≠ [] → t.row.category ∈ cs
  from_ : ∀ s d, query.from_ = some s → s ≠ "" → p.date s = some d → d ≤ t.row.occurredAt
  to_ : ∀ s d, query.to_ = some s → s ≠ "" → p.date s = some d → t.row.occurredAt ≤ d
  text : ∀ q, query.q = some q → q ≠ "" → contains t.row.description q = true ∨
    ∃ m, t.merchant = some m ∧ contains m.name q = true

/-- The accounts that a request is about. -/
theorem mem_resolveAccountIds {db : Db} {userId : Uuid} {accountId : Option Uuid}
    {accountIds : List Uuid} (h : resolveAccountIds db userId accountId = .ok accountIds) (id : Uuid) :
    id ∈ accountIds ↔ (∃ a, db.accounts.lookup id = some a ∧ a.userId = userId) ∧
      ∀ chosen, accountId = some chosen → id = chosen := by
  have hall : ∀ x, x ∈ (db.accounts.entries.filter fun e => e.2.userId == userId).map Sigma.fst ↔
      ∃ a, db.accounts.lookup x = some a ∧ a.userId = userId := by
    intro x
    simp only [List.mem_map, List.mem_filter, beq_iff_eq]
    constructor
    · rintro ⟨e, ⟨he, huser⟩, rfl⟩
      exact ⟨e.2, AList.mem_lookup_iff.mpr he, huser⟩
    · rintro ⟨a, ha, huser⟩
      exact ⟨⟨x, a⟩, ⟨AList.mem_lookup_iff.mp ha, huser⟩, rfl⟩
  unfold resolveAccountIds at h
  split at h
  · obtain rfl := Except.ok.inj h
    rw [hall]
    exact ⟨fun hx => ⟨hx, fun _ hc => (nomatch hc)⟩, fun hx => hx.1⟩
  · rename_i chosen
    dsimp only at h
    split at h
    · rename_i hmem
      obtain rfl := Except.ok.inj h
      rw [List.contains_iff_mem, hall] at hmem
      rw [List.mem_singleton]
      constructor
      · rintro rfl
        exact ⟨hmem, fun _ hc => Option.some.inj hc⟩
      · rintro ⟨-, hc⟩
        exact hc chosen rfl
    · cases h

/-- A bound that was read. -/
theorem dateBound_all {p : Parsers} {text : Option String} {bound : Option Instant}
    (h : dateBound p text = .ok bound) (q : Instant → Bool) :
    bound.all q = true ↔ ∀ s d, text = some s → s ≠ "" → p.date s = some d → q d = true := by
  unfold dateBound at h
  split at h
  · obtain rfl := Except.ok.inj h
    exact ⟨fun _ _ _ hs => (nomatch hs), fun _ => rfl⟩
  · obtain rfl := Except.ok.inj h
    exact ⟨fun _ _ _ hs hne => (hne (Option.some.inj hs).symm).elim, fun _ => rfl⟩
  · rename_i s hs
    split at h
    · rename_i t ht
      obtain rfl := Except.ok.inj h
      constructor
      · intro hq s' d hs' _ hd
        obtain rfl := Option.some.inj hs'
        rw [ht] at hd
        exact Option.some.inj hd ▸ hq
      · intro hq
        exact hq s t rfl (fun he => hs (by rw [he])) ht
    · cases h

/-- The statement selects what the request asks for. -/
theorem matchesFilters_iff {p : Parsers} {db : Db} {userId : Uuid} {query : ListTransactionsDto}
    {f : ListFilters} (haccounts : resolveAccountIds db userId query.accountId = .ok f.accountIds)
    (hfrom : dateBound p query.from_ = .ok f.from_) (hto : dateBound p query.to_ = .ok f.to_)
    (hq : f.q = query.q) (hcategories : f.categories = query.categories)
    (hstatus : f.status = query.status) (t : TransactionRow) :
    matchesFilters contains f t = true ↔ Matches contains p db userId query t := by
  have hfrom := dateBound_all hfrom (· ≤ t.row.occurredAt)
  have hto := dateBound_all hto (t.row.occurredAt ≤ ·)
  have hstatus : f.status.all (· == t.row.status) = true ↔
      ∀ s, query.status = some s → t.row.status = s := by
    rw [hstatus]
    cases query.status with
    | none => simp
    | some s => simpa using eq_comm
  have hcategories : f.categories.all (fun cs => cs.isEmpty || cs.contains t.row.category) = true ↔
      ∀ cs, query.categories = some cs → cs ≠ [] → t.row.category ∈ cs := by
    rw [hcategories]
    cases query.categories <;> simp [or_iff_not_imp_left]
  have htext : (!JsString.truthy f.q || f.q.any fun q =>
      contains t.row.description q || t.merchant.any fun m => contains m.name q) = true ↔
      ∀ q, query.q = some q → q ≠ "" → contains t.row.description q = true ∨
        ∃ m, t.merchant = some m ∧ contains m.name q = true := by
    rw [hq]
    cases query.q with
    | none => simp [JsString.truthy]
    | some q => cases t.merchant <;> simp [JsString.truthy, or_iff_not_imp_left]
  simp only [decide_eq_true_eq] at hfrom hto
  simp only [matchesFilters, Bool.and_eq_true, List.contains_iff_mem,
    mem_resolveAccountIds haccounts, hfrom, hto, hstatus, hcategories, htext]
  constructor
  · rintro ⟨⟨⟨⟨⟨⟨haccount, hchosen⟩, hs⟩, hcs⟩, hf⟩, ht⟩, hx⟩
    exact ⟨haccount, hchosen, hs, hcs, hf, ht, hx⟩
  · rintro ⟨haccount, hchosen, hs, hcs, hf, ht, hx⟩
    exact ⟨⟨⟨⟨⟨⟨haccount, hchosen⟩, hs⟩, hcs⟩, hf⟩, ht⟩, hx⟩

/-- The service's pages, by their cursors. -/
def readPage (cfg : PageConfig) (p : Parsers) (db : Db) (userId : Uuid)
    (query : ListTransactionsDto) (cursor : Option String) :
    Except Error (List TransactionDto × Option String) :=
  (list merchantOf contains counterparties cfg p db userId { query with cursor }).map
    fun page => (page.items, page.nextCursor)

/-- What a page shows of some rows, dropping the hidden ones. -/
theorem forall₂_pageItems (db : Db) (chunks : List (List TransactionRow)) :
    List.Forall₂ (fun dto t => ∃ name, dto = toTransactionDto t name)
      (chunks.map (pageItems counterparties db)).flatten
      (chunks.flatten.filter fun t => !isHiddenByOverride t) := by
  induction chunks with
  | nil => exact .nil
  | cons chunk chunks ih =>
    rw [List.map_cons, List.flatten_cons, List.flatten_cons, List.filter_append]
    refine List.rel_append ?_ ih
    rw [pageItems, List.forall₂_map_left_iff, List.forall₂_same]
    exact fun t _ => ⟨_, rfl⟩

/-- A request about some accounts. -/
theorem list_of_accounts {cfg : PageConfig} {p : Parsers} {db : Db} {userId : Uuid}
    (query : ListTransactionsDto) {accountIds : List Uuid}
    (haccounts : resolveAccountIds db userId query.accountId = .ok accountIds)
    (hne : accountIds ≠ []) :
    list merchantOf contains counterparties cfg p db userId query = (do
      let from_ ← dateBound p query.from_
      let to_ ← dateBound p query.to_
      return toPage counterparties db (pageLimit cfg query) (findTransactions merchantOf contains db
        { accountIds, cursor := queryCursor p query.cursor, limit := pageLimit cfg query
          q := query.q, categories := query.categories, status := query.status, from_, to_ })) := by
  rw [list, haccounts]
  cases accountIds with
  | nil => exact (hne rfl).elim
  | cons a as => rfl

/-- A request that is not refused: it is about no account, or about some with bounds that are
read. -/
theorem list_accepted {cfg : PageConfig} {p : Parsers} {db : Db} {userId : Uuid}
    {query : ListTransactionsDto} {page : TransactionListPage}
    (h : list merchantOf contains counterparties cfg p db userId query = .ok page) :
    ∃ accountIds, resolveAccountIds db userId query.accountId = .ok accountIds ∧
      (accountIds = [] ∨ ∃ from_ to_, dateBound p query.from_ = .ok from_ ∧
        dateBound p query.to_ = .ok to_) := by
  cases haccounts : resolveAccountIds db userId query.accountId with
  | error e =>
    rw [list, haccounts] at h
    cases h
  | ok accountIds =>
    refine ⟨accountIds, rfl, ?_⟩
    by_cases hnil : accountIds = []
    · exact .inl hnil
    · right
      rw [list_of_accounts merchantOf contains counterparties query haccounts hnil] at h
      cases hfrom : dateBound p query.from_ with
      | error e =>
        rw [hfrom] at h
        cases h
      | ok from_ =>
        cases hto : dateBound p query.to_ with
        | error e =>
          rw [hfrom, hto] at h
          cases h
        | ok to_ => exact ⟨from_, to_, rfl, rfl⟩

/-- What is read from cursor to cursor, if the first request is not refused. -/
theorem pages_of_request (cfg : PageConfig) (p : Parsers) (db : Db) (userId : Uuid)
    (query : ListTransactionsDto) (hlimit : 1 ≤ pageLimit cfg query)
    (hreads : ∀ id t, db.transactions.lookup id = some t → p.Reads t.occurredAt id)
    (hfirst : ∃ page, list merchantOf contains counterparties cfg p db userId
      { query with cursor := none } = .ok page) :
    ∃ rows pages, Descending rowKey rows ∧
      (∀ t, t ∈ rows ↔ t ∈ transactionRows merchantOf db ∧ Matches contains p db userId query t) ∧
      Pages (readPage merchantOf contains counterparties cfg p db userId query) none pages ∧
      List.Forall₂ (fun dto t => ∃ name, dto = toTransactionDto t name) pages.flatten
        (rows.filter fun t => !isHiddenByOverride t) := by
  obtain ⟨first, hfirst⟩ := hfirst
  obtain ⟨accountIds, haccounts, hcase⟩ := list_accepted merchantOf contains counterparties hfirst
  dsimp only at haccounts hcase
  by_cases hnil : accountIds = []
  · -- no row is in an account of the user
    subst hnil
    refine ⟨[], [[]], .nil, fun t => ?_, .last ?_, .nil⟩
    · refine ⟨fun h => (nomatch h), fun h => ?_⟩
      have hmem := (mem_resolveAccountIds haccounts _).mpr ⟨h.2.account, h.2.chosen⟩
      cases hmem
    · rw [readPage, list, haccounts]
      rfl
  · obtain ⟨from_, to_, hfrom, hto⟩ := hcase.resolve_left hnil
    let f : ListFilters :=
      { accountIds, cursor := none, limit := pageLimit cfg query, q := query.q
        categories := query.categories, status := query.status, from_, to_ }
    have hmatch : ∀ t, matchesFilters contains f t = true ↔ Matches contains p db userId query t :=
      matchesFilters_iff contains haccounts hfrom hto rfl rfl rfl
    have hread : ∀ c : Option TransactionRow,
        (∀ x ∈ c, x ∈ ordered merchantOf contains db f) →
        readPage merchantOf contains counterparties cfg p db userId query (c.map rowCursor) =
          .ok (pageItems counterparties db
            ((rest rowKey (ordered merchantOf contains db f) c).take (pageLimit cfg query)),
            (next (rest rowKey (ordered merchantOf contains db f) c) (pageLimit cfg query)).map
              rowCursor) := by
      intro c hc
      have hcursor : queryCursor p (c.map rowCursor) = c.map fun x => (x.row.occurredAt, x.id) := by
        cases c with
        | none => rfl
        | some x =>
          have hx := (mem_transactionRows merchantOf).mp ((mem_ordered ..).mp (hc x rfl)).1
          exact queryCursor_rowCursor (hreads _ _ hx.1)
      have hfind := findTransactions_eq merchantOf contains db
        { f with cursor := queryCursor p (c.map rowCursor) } c hcursor
      have hlist : list merchantOf contains counterparties cfg p db userId
          { query with cursor := c.map rowCursor } =
          .ok (toPage counterparties db (pageLimit cfg query) (findTransactions merchantOf contains db
            { f with cursor := queryCursor p (c.map rowCursor) })) := by
        rw [list_of_accounts merchantOf contains counterparties
          { query with cursor := c.map rowCursor } haccounts hnil, hfrom, hto]
        rfl
      rw [readPage, hlist, hfind, toPage_take]
      rfl
    obtain ⟨chunks, hflat, hpages⟩ := exists_pages (ordered_descending merchantOf contains db f)
      hlimit (pageItems counterparties db) rowCursor hread
    refine ⟨ordered merchantOf contains db f, _, ordered_descending merchantOf contains db f,
      fun t => ?_, hpages, ?_⟩
    · rw [mem_ordered, hmatch]
    · rw [← hflat]
      exact forall₂_pageItems counterparties db chunks

/-- **Cursor pagination is exact.** If the first request is not refused, then reading from cursor to
cursor ends, in one way, and what was read is the matching transactions that are not hidden, each
once and in descending order. -/
theorem pages_exact (cfg : PageConfig) (p : Parsers) (db : Db) (userId : Uuid)
    (query : ListTransactionsDto) (hlimit : 1 ≤ pageLimit cfg query)
    (hreads : ∀ id t, db.transactions.lookup id = some t → p.Reads t.occurredAt id)
    (hfirst : ∃ page, list merchantOf contains counterparties cfg p db userId
      { query with cursor := none } = .ok page) :
    ∃ pages, Pages (readPage merchantOf contains counterparties cfg p db userId query) none pages ∧
      (∀ pages', Pages (readPage merchantOf contains counterparties cfg p db userId query) none
        pages' → pages' = pages) ∧
      ∃ rows, Descending rowKey rows ∧
        (∀ t, t ∈ rows ↔ t ∈ transactionRows merchantOf db ∧
          Matches contains p db userId query t ∧ isHiddenByOverride t = false) ∧
        List.Forall₂ (fun dto t => ∃ name, dto = toTransactionDto t name) pages.flatten rows := by
  obtain ⟨rows, pages, hdesc, hrows, hpages, hitems⟩ :=
    pages_of_request merchantOf contains counterparties cfg p db userId query hlimit hreads hfirst
  refine ⟨pages, hpages, fun pages' h => h.unique hpages, _, hdesc.filter _, fun t => ?_, hitems⟩
  rw [List.mem_filter, hrows, and_assoc, Bool.not_eq_true']

end

/-! ## A list of three -/

/-- Ann's account with three transactions of one instant, one of them hidden. -/
def sampleListDb : Db :=
  let row : Transaction := ⟨10, .cardPurchase, .posted, -500, "Coffee", .dining, none,
    1775037600000, none, none⟩
  { sampleDb with
    transactions := (((∅ : Table Uuid Transaction).insert 101 row).insert 102 row).insert 103 row
    overrides := (∅ : Table Uuid TransactionOverride).insert 102
      ⟨none, none, none, none, some .hidden, none, 9, none⟩ }

/-- Parsers that read cursors of that instant. -/
def sampleParsers : Parsers where
  json := fun bytes =>
    let text := (bytes.map fun b => Char.ofNat b.toNat).drop 15
    let occurredAt := String.ofList (text.takeWhile fun c => c != '\x22')
    let id := String.ofList ((text.drop (occurredAt.length + 8)).takeWhile fun c => c != '\x22')
    if utf8 (stringify ⟨occurredAt, id⟩) = bytes then some ⟨some occurredAt, some id⟩ else none
  date := fun s => if s = "2026-04-01T10:00:00.000Z" then some 1775037600000 else none

/-- Parsers that read the cursors of all rows. -/
theorem reads_of_entries {p : Parsers} {db : Db} (h : ∀ e ∈ db.transactions.entries,
    p.json (utf8 (stringify (cursorOf e.2.occurredAt e.1))) =
      some ⟨some (toISOString e.2.occurredAt), some (uuidText e.1)⟩ ∧
    p.date (toISOString e.2.occurredAt) = some e.2.occurredAt) :
    ∀ id t, db.transactions.lookup id = some t → p.Reads t.occurredAt id := by
  intro id t ht
  obtain ⟨hjson, hdate⟩ := h ⟨id, t⟩ (AList.mem_lookup_iff.mp ht)
  exact ⟨hjson, hdate⟩

/-- Her list with one row a page. -/
theorem pages_exact_ann :
    ∃ pages, Pages (readPage (fun _ => none) (fun s t => s == t) (fun _ _ _ => none) {} sampleParsers
        sampleListDb 1 { limit := some 1 }) none pages ∧
      ∃ rows, Descending rowKey rows ∧
        List.Forall₂ (fun dto t => ∃ name, dto = toTransactionDto t name) pages.flatten rows := by
  have hreads : ∀ id t, sampleListDb.transactions.lookup id = some t →
      sampleParsers.Reads t.occurredAt id := reads_of_entries (by decide +kernel)
  obtain ⟨pages, hpages, -, rows, hdesc, -, hitems⟩ := pages_exact (fun _ => none)
    (fun s t => s == t) (fun _ _ _ => none) {} sampleParsers sampleListDb 1 { limit := some 1 }
    (by decide) hreads ⟨_, rfl⟩
  exact ⟨pages, hpages, rows, hdesc, hitems⟩

end BankDemo.Transactions
