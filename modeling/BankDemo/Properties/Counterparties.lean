import BankDemo.Properties.Pagination
import BankDemo.Transactions.Service

/-!
# Names of the other side

A name that a row of a page is given is that of the other side of a transfer the row belongs to, and
of another user (`resolved_sound`). Each transfer names one row only: the last that has its id in
the metadata, or else its pending transaction, or, for a transfer without one, its settled one
(`Represents`). So the names are complete exactly if the rows of a page that belong to a transfer
with someone else are all represented (`counterparties_iff`).
-/

namespace BankDemo.Transactions

/-! ## Rows, transfers and the other side -/

/-- A row belongs to a transfer: by its metadata, or by one of the transfer's columns. -/
def Linked (r : TransactionRow) (id : Uuid) (t : Transfer) : Prop :=
  r.row.metadata.bind TransactionMetadata.transferId = some id ∨
    t.pendingTransactionId = some r.id ∨ t.settledTransactionId = some r.id

/-- The accounts on the two sides of a transfer. -/
def OtherSide (t : Transfer) (accountId other : Uuid) : Prop :=
  (accountId = t.fromAccountId ∧ t.toAccountId = some other) ∨
    (t.toAccountId = some accountId ∧ other = t.fromAccountId)

/-- The other side of a transfer is an account of a different user, who has a name. -/
def Named (db : Db) (t : Transfer) (accountId : Uuid) (name : String) : Prop :=
  ∃ other account user, OtherSide t accountId other ∧ db.accounts.lookup other = some account ∧
    (db.accounts.lookup accountId).map Account.userId ≠ some account.userId ∧
    db.users.lookup account.userId = some user ∧ counterpartyName user = some name

/-- The row of a page that a transfer names. -/
def Represents (rows : List TransactionRow) (id : Uuid) (t : Transfer) (r : TransactionRow) : Prop :=
  (∃ before after, rows = before ++ r :: after ∧
      r.row.metadata.bind TransactionMetadata.transferId = some id ∧
      ∀ x ∈ after, x.row.metadata.bind TransactionMetadata.transferId ≠ some id) ∨
    (r ∈ rows ∧ (∀ x ∈ rows, x.row.metadata.bind TransactionMetadata.transferId ≠ some id) ∧
      (t.pendingTransactionId <|> t.settledTransactionId) = some r.id)

theorem Represents.mem {rows : List TransactionRow} {id : Uuid} {t : Transfer} {r : TransactionRow}
    (h : Represents rows id t r) : r ∈ rows := by
  rcases h with ⟨before, after, rfl, -⟩ | ⟨hr, -⟩
  · simp
  · exact hr

theorem Represents.linked {rows : List TransactionRow} {id : Uuid} {t : Transfer}
    {r : TransactionRow} (h : Represents rows id t r) : Linked r id t := by
  rcases h with ⟨-, -, -, hmeta, -⟩ | ⟨-, -, hcandidate⟩
  · exact .inl hmeta
  · right
    cases hpending : t.pendingTransactionId with
    | some x => exact .inl (by simpa [hpending] using hcandidate)
    | none => exact .inr (by simpa [hpending] using hcandidate)

theorem counterpartyAccountId_iff {link : Link} {t : Transfer} {other : Uuid} :
    counterpartyAccountId link t = some other ↔ OtherSide t link.accountId other := by
  unfold counterpartyAccountId OtherSide
  split_ifs with hfrom hto
  · rw [hfrom]
    constructor
    · exact fun h => .inl ⟨rfl, h⟩
    · rintro (⟨-, h⟩ | ⟨h, rfl⟩) <;> exact h
  · simp [hfrom, ← hto, eq_comm]
  · simp [hfrom, Ne.symm hto]

/-! ## The maps -/

theorem metaLink_iff {r : TransactionRow} {id : Uuid} {link : Link} :
    metaLink r = some (id, link) ↔
      r.row.metadata.bind TransactionMetadata.transferId = some id ∧
        link = ⟨r.id, r.row.accountId⟩ := by
  unfold metaLink
  cases r.row.metadata.bind TransactionMetadata.transferId <;> simp [eq_comm]

/-- The row that the first loop leaves for a transfer. -/
theorem txByTransferId_iff {rows : List TransactionRow} {id : Uuid} {link : Link} :
    (txByTransferId rows).lookup id = some link ↔ ∃ before r after, rows = before ++ r :: after ∧
      r.row.metadata.bind TransactionMetadata.transferId = some id ∧
      link = ⟨r.id, r.row.accountId⟩ ∧
      ∀ x ∈ after, x.row.metadata.bind TransactionMetadata.transferId ≠ some id := by
  rw [txByTransferId, Table.lookup_setAll_empty, Table.last_filterMap]
  constructor
  · rintro ⟨before, r, after, rfl, hr, hafter⟩
    obtain ⟨hmeta, rfl⟩ := metaLink_iff.1 hr
    refine ⟨before, r, after, rfl, hmeta, rfl, fun x hx hxmeta => ?_⟩
    exact hafter x hx _ (metaLink_iff.2 ⟨hxmeta, rfl⟩) rfl
  · rintro ⟨before, r, after, rfl, hmeta, rfl, hafter⟩
    refine ⟨before, r, after, rfl, metaLink_iff.2 ⟨hmeta, rfl⟩, ?_⟩
    rintro x hx ⟨id', link⟩ hxlink rfl
    exact hafter x hx (metaLink_iff.1 hxlink).1

theorem txByTransferId_none {rows : List TransactionRow} {id : Uuid} :
    (txByTransferId rows).lookup id = none ↔
      ∀ x ∈ rows, x.row.metadata.bind TransactionMetadata.transferId ≠ some id := by
  rw [← Option.not_isSome_iff_eq_none, txByTransferId, Table.isSome_setAll_empty]
  simp only [List.mem_filterMap, metaLink_iff]
  constructor
  · exact fun h x hx hmeta => h ⟨_, x, hx, hmeta, rfl⟩
  · rintro h ⟨link, x, hx, hmeta, -⟩
    exact h x hx hmeta

/-- Rows with different ids are found by their ids. -/
theorem txAccountById_iff {rows : List TransactionRow} (hids : (rows.map TransactionRow.id).Nodup)
    {txId accountId : Uuid} : (txAccountById rows).lookup txId = some accountId ↔
      ∃ r ∈ rows, r.id = txId ∧ r.row.accountId = accountId := by
  rw [txAccountById, Table.lookup_setAll_empty]
  constructor
  · intro h
    obtain ⟨r, hr, heq⟩ := List.mem_map.1 h.mem
    obtain ⟨rfl, rfl⟩ := Prod.mk.inj heq
    exact ⟨r, hr, rfl, rfl⟩
  · rintro ⟨r, hr, rfl, rfl⟩
    obtain ⟨before, after, rfl⟩ := List.append_of_mem hr
    refine ⟨before.map fun r => (r.id, r.row.accountId), after.map fun r => (r.id, r.row.accountId),
      by simp, fun e he => ?_⟩
    obtain ⟨x, hx, rfl⟩ := List.mem_map.1 he
    rw [List.map_append, List.map_cons] at hids
    have hnot := (List.nodup_cons.1 (List.nodup_append.1 hids).2.1).1
    rintro (heq : x.id = r.id)
    exact hnot (heq ▸ List.mem_map_of_mem hx)

theorem candidateLink_iff {rows : List TransactionRow}
    (hids : (rows.map TransactionRow.id).Nodup) {e : Uuid × Transfer} {id : Uuid} {link : Link} :
    candidateLink rows e = some (id, link) ↔ e.1 = id ∧ ∃ r ∈ rows,
      (e.2.pendingTransactionId <|> e.2.settledTransactionId) = some r.id ∧
        link = ⟨r.id, r.row.accountId⟩ := by
  simp only [candidateLink, Option.bind_eq_some_iff, Option.map_eq_some_iff,
    txAccountById_iff hids, Prod.mk.injEq]
  constructor
  · rintro ⟨txId, hcandidate, accountId, ⟨r, hr, rfl, rfl⟩, rfl, rfl⟩
    exact ⟨rfl, r, hr, hcandidate, rfl⟩
  · rintro ⟨rfl, r, hr, hcandidate, rfl⟩
    exact ⟨r.id, hcandidate, r.row.accountId, ⟨r, hr, rfl, rfl⟩, rfl, rfl⟩

section

variable {order : List (Uuid × Transfer) → List (Uuid × Transfer)} {db : Db}
  {rows : List TransactionRow}

/-- The query answers with the transfers that rows of the page belong to. -/
theorem mem_linkedTransfers (horder : ∀ l, (order l).Perm l) {id : Uuid} {t : Transfer} :
    (id, t) ∈ linkedTransfers order db rows ↔
      db.transfers.lookup id = some t ∧ ∃ r ∈ rows, Linked r id t := by
  have hlinked : isLinked rows id t = true ↔ ∃ r ∈ rows, Linked r id t := by
    have hmeta : ((txByTransferId rows).lookup id).isSome = true ↔
        ∃ x ∈ rows, x.row.metadata.bind TransactionMetadata.transferId = some id := by
      rw [← not_iff_not, Bool.not_eq_true, Option.isSome_eq_false_iff, Option.isNone_iff_eq_none,
        txByTransferId_none]
      simp
    have hcolumn : ∀ column : Option Uuid,
        column.any (rows.map TransactionRow.id).contains = true ↔ ∃ x ∈ rows, column = some x.id := by
      intro column
      cases column <;> simp [eq_comm]
    simp only [isLinked, Bool.or_eq_true, hmeta, hcolumn, Linked]
    constructor
    · rintro ((⟨x, hx, h⟩ | ⟨x, hx, h⟩) | ⟨x, hx, h⟩)
      · exact ⟨x, hx, .inl h⟩
      · exact ⟨x, hx, .inr (.inl h)⟩
      · exact ⟨x, hx, .inr (.inr h)⟩
    · rintro ⟨x, hx, h | h | h⟩
      · exact .inl (.inl ⟨x, hx, h⟩)
      · exact .inl (.inr ⟨x, hx, h⟩)
      · exact .inr ⟨x, hx, h⟩
  rw [linkedTransfers, (horder _).mem_iff, List.mem_filter, hlinked, ← Table.mem_entries_iff]
  apply and_congr_left'
  rw [List.mem_map]
  constructor
  · rintro ⟨e, he, heq⟩
    cases heq
    exact he
  · exact fun h => ⟨_, h, rfl⟩

/-- **The row of a transfer.** -/
theorem links_iff (horder : ∀ l, (order l).Perm l) (hids : (rows.map TransactionRow.id).Nodup)
    {id : Uuid} {t : Transfer} (ht : db.transfers.lookup id = some t) {link : Link} :
    ((txByTransferId rows).fill ((linkedTransfers order db rows).filterMap
        (candidateLink rows))).lookup id = some link ↔
      ∃ r, Represents rows id t r ∧ link = ⟨r.id, r.row.accountId⟩ := by
  have hmem : ∀ link', (id, link') ∈ (linkedTransfers order db rows).filterMap
      (candidateLink rows) ↔ ∃ r ∈ rows,
        (t.pendingTransactionId <|> t.settledTransactionId) = some r.id ∧
          link' = ⟨r.id, r.row.accountId⟩ := by
    intro link'
    rw [List.mem_filterMap]
    constructor
    · rintro ⟨⟨id', t'⟩, he, hcandidate⟩
      obtain ⟨rfl, r, hr, hid, hlink⟩ := (candidateLink_iff hids).1 hcandidate
      obtain rfl := Option.some.inj (ht.symm.trans ((mem_linkedTransfers horder).1 he).1)
      exact ⟨r, hr, hid, hlink⟩
    · rintro ⟨r, hr, hid, hlink⟩
      refine ⟨(id, t), (mem_linkedTransfers horder).2 ⟨ht, r, hr, ?_⟩,
        (candidateLink_iff hids).2 ⟨rfl, r, hr, hid, hlink⟩⟩
      right
      cases hpending : t.pendingTransactionId with
      | some x => exact .inl (by simpa [hpending] using hid)
      | none => exact .inr (by simpa [hpending] using hid)
  have hone : ∀ a b, (id, a) ∈ (linkedTransfers order db rows).filterMap (candidateLink rows) →
      (id, b) ∈ (linkedTransfers order db rows).filterMap (candidateLink rows) → a = b := by
    intro a b ha hb
    obtain ⟨r, hr, hid, rfl⟩ := (hmem a).1 ha
    obtain ⟨r', hr', hid', rfl⟩ := (hmem b).1 hb
    have heq : r = r' := List.inj_on_of_nodup_map hids hr hr'
      (Option.some.inj (hid.symm.trans hid'))
    rw [heq]
  rw [Table.lookup_fill hone, txByTransferId_iff, txByTransferId_none, hmem]
  constructor
  · rintro (⟨before, r, after, rfl, hmeta, rfl, hafter⟩ | ⟨hfree, r, hr, hid, rfl⟩)
    · exact ⟨r, .inl ⟨before, after, rfl, hmeta, hafter⟩, rfl⟩
    · exact ⟨r, .inr ⟨hr, hfree, hid⟩, rfl⟩
  · rintro ⟨r, ⟨before, after, rfl, hmeta, hafter⟩ | ⟨hr, hfree, hid⟩, rfl⟩
    · exact .inl ⟨before, r, after, rfl, hmeta, rfl, hafter⟩
    · exact .inr ⟨hfree, r, hr, hid, rfl⟩

/-! ## Names -/

theorem mem_accountIds {transfers : List (Uuid × Transfer)} {e : Uuid × Transfer}
    (he : e ∈ transfers) {accountId other : Uuid} (h : OtherSide e.2 accountId other) :
    accountId ∈ accountIds transfers ∧ other ∈ accountIds transfers := by
  have hside : ∀ a, a = e.2.fromAccountId ∨ e.2.toAccountId = some a → a ∈ accountIds transfers := by
    intro a ha
    refine List.mem_flatMap.2 ⟨e, he, ?_⟩
    simpa using ha
  rcases h with ⟨hfrom, hto⟩ | ⟨hto, hfrom⟩
  · exact ⟨hside _ (.inl hfrom), hside _ (.inr hto)⟩
  · exact ⟨hside _ (.inr hto), hside _ (.inl hfrom)⟩

theorem userIdByAccount_eq {transfers : List (Uuid × Transfer)} {accountId : Uuid}
    (h : accountId ∈ accountIds transfers) :
    userIdByAccount db transfers accountId = (db.accounts.lookup accountId).map Account.userId := by
  rw [userIdByAccount, if_pos (List.contains_iff_mem.2 h)]

theorem nameById_eq {transfers : List (Uuid × Transfer)} {accountId userId : Uuid}
    (h : accountId ∈ accountIds transfers)
    (huser : userIdByAccount db transfers accountId = some userId) :
    nameById db transfers userId = (db.users.lookup userId).bind counterpartyName := by
  have hmem : userId ∈ userIds db transfers := List.mem_filterMap.2 ⟨accountId, h, huser⟩
  rw [nameById, if_pos (List.contains_iff_mem.2 hmem)]

/-- What is set for a transfer: the name of the other side, under the row of the transfer. -/
theorem namedRow_iff {transfers : List (Uuid × Transfer)} {links : Table Uuid Link}
    {e : Uuid × Transfer} (he : e ∈ transfers) {txId : Uuid} {name : String} :
    namedRow db transfers links e = some (txId, name) ↔ ∃ link, links.lookup e.1 = some link ∧
      link.txId = txId ∧ Named db e.2 link.accountId name := by
  simp only [namedRow, Option.bind_eq_bind, Option.bind_eq_some_iff, counterpartyAccountId_iff]
  constructor
  · rintro ⟨link, hlink, other, hother, userId, huser, h⟩
    obtain ⟨hown, hmem⟩ := mem_accountIds he hother
    split at h
    · cases h
    · rename_i hdifferent
      obtain ⟨n, hname, heq⟩ := Option.map_eq_some_iff.1 h
      obtain ⟨rfl, rfl⟩ := Prod.mk.inj heq
      rw [nameById_eq hmem huser, Option.bind_eq_some_iff] at hname
      obtain ⟨user, hlookup, hname⟩ := hname
      rw [userIdByAccount_eq hown] at hdifferent
      rw [userIdByAccount_eq hmem, Option.map_eq_some_iff] at huser
      obtain ⟨account, haccount, rfl⟩ := huser
      exact ⟨link, hlink, rfl, other, account, user, hother, haccount, Ne.symm hdifferent, hlookup,
        hname⟩
  · rintro ⟨link, hlink, rfl, other, account, user, hother, haccount, hdifferent, hlookup, hname⟩
    obtain ⟨hown, hmem⟩ := mem_accountIds he hother
    have huser : userIdByAccount db transfers other = some account.userId := by
      rw [userIdByAccount_eq hmem, haccount, Option.map_some]
    refine ⟨link, hlink, other, hother, account.userId, huser, ?_⟩
    rw [userIdByAccount_eq hown, if_neg (Ne.symm hdifferent), nameById_eq hmem huser, hlookup,
      Option.bind_some, hname, Option.map_some]

/-- The ways out before the last loop make no difference. -/
theorem resolve_eq (order : List (Uuid × Transfer) → List (Uuid × Transfer)) (db : Db)
    (rows : List TransactionRow) : resolveCounterparties order db rows =
      Table.setAll ∅ ((linkedTransfers order db rows).filterMap (namedRow db
        (linkedTransfers order db rows) ((txByTransferId rows).fill
          ((linkedTransfers order db rows).filterMap (candidateLink rows))))) := by
  simp only [resolveCounterparties]
  generalize linkedTransfers order db rows = transfers
  generalize (txByTransferId rows).fill (transfers.filterMap (candidateLink rows)) = links
  have hnothing : (∀ e ∈ transfers, namedRow db transfers links e = none) →
      Table.setAll ∅ (transfers.filterMap (namedRow db transfers links)) = ∅ := by
    intro h
    rw [List.filterMap_eq_nil_iff.2 h]
    rfl
  split_ifs with hlinks husers
  · refine (hnothing fun e he => ?_).symm
    rw [Option.eq_none_iff_forall_ne_some]
    rintro ⟨txId, name⟩ hnamed
    obtain ⟨link, hlink, -⟩ := (namedRow_iff he).1 hnamed
    have hentry := Table.mem_entries_iff.2 hlink
    rw [List.isEmpty_iff.1 hlinks] at hentry
    simp at hentry
  · refine (hnothing fun e he => ?_).symm
    rw [Option.eq_none_iff_forall_ne_some]
    rintro ⟨txId, name⟩ hnamed
    obtain ⟨link, -, -, other, account, user, hother, haccount, -⟩ := (namedRow_iff he).1 hnamed
    obtain ⟨-, hmem⟩ := mem_accountIds he hother
    have huser : account.userId ∈ userIds db transfers := by
      refine List.mem_filterMap.2 ⟨other, hmem, ?_⟩
      rw [userIdByAccount_eq hmem, haccount, Option.map_some]
    rw [List.isEmpty_iff.1 husers] at huser
    simp at huser
  · rfl

variable (horder : ∀ l, (order l).Perm l) (hids : (rows.map TransactionRow.id).Nodup)

include horder hids

/-- What may be set. -/
theorem mem_named {txId : Uuid} {name : String} :
    (txId, name) ∈ (linkedTransfers order db rows).filterMap (namedRow db
        (linkedTransfers order db rows) ((txByTransferId rows).fill
          ((linkedTransfers order db rows).filterMap (candidateLink rows)))) ↔
      ∃ id t r, db.transfers.lookup id = some t ∧ Represents rows id t r ∧ r.id = txId ∧
        Named db t r.row.accountId name := by
  rw [List.mem_filterMap]
  constructor
  · rintro ⟨⟨id, t⟩, he, hnamed⟩
    obtain ⟨link, hlink, rfl, hname⟩ := (namedRow_iff he).1 hnamed
    have ht := ((mem_linkedTransfers horder).1 he).1
    obtain ⟨r, hr, rfl⟩ := (links_iff horder hids ht).1 hlink
    exact ⟨id, t, r, ht, hr, rfl, hname⟩
  · rintro ⟨id, t, r, ht, hr, rfl, hname⟩
    have he : (id, t) ∈ linkedTransfers order db rows :=
      (mem_linkedTransfers horder).2 ⟨ht, r, hr.mem, hr.linked⟩
    exact ⟨(id, t), he, (namedRow_iff he).2
      ⟨_, (links_iff horder hids ht).2 ⟨r, hr, rfl⟩, rfl, hname⟩⟩

theorem resolved_sound {txId : Uuid} {name : String}
    (h : (resolveCounterparties order db rows).lookup txId = some name) :
    ∃ id t r, db.transfers.lookup id = some t ∧ Represents rows id t r ∧ r.id = txId ∧
      Named db t r.row.accountId name := by
  rw [resolve_eq, Table.lookup_setAll_empty] at h
  exact (mem_named horder hids).1 h.mem

theorem resolved_isSome {txId : Uuid} :
    ((resolveCounterparties order db rows).lookup txId).isSome ↔
      ∃ id t r, db.transfers.lookup id = some t ∧ Represents rows id t r ∧ r.id = txId ∧
        ∃ name, Named db t r.row.accountId name := by
  rw [resolve_eq, Table.isSome_setAll_empty]
  simp only [mem_named horder hids]
  constructor
  · rintro ⟨name, id, t, r, ht, hr, hid, hname⟩
    exact ⟨id, t, r, ht, hr, hid, name, hname⟩
  · rintro ⟨id, t, r, ht, hr, hid, name, hname⟩
    exact ⟨name, id, t, r, ht, hr, hid, hname⟩

omit horder hids

/-- The names of a page are complete and correct. -/
structure CorrectNames (order : List (Uuid × Transfer) → List (Uuid × Transfer)) (db : Db)
    (rows : List TransactionRow) : Prop where
  of_rows : ∀ txId, ((resolveCounterparties order db rows).lookup txId).isSome →
    ∃ r ∈ rows, r.id = txId
  /-- A name is that of the other side of a transfer that the row belongs to. -/
  sound : ∀ r ∈ rows, ∀ name, (resolveCounterparties order db rows).lookup r.id = some name →
    ∃ id t, db.transfers.lookup id = some t ∧ Linked r id t ∧ Named db t r.row.accountId name
  /-- A row that belongs to a transfer with someone else has a name. -/
  complete : ∀ r ∈ rows, ∀ id t, db.transfers.lookup id = some t → Linked r id t →
    (∃ name, Named db t r.row.accountId name) →
    ((resolveCounterparties order db rows).lookup r.id).isSome

/-- The rows of a page that belong to transfers with someone else are rows that such transfers
name. -/
def AllRepresented (db : Db) (rows : List TransactionRow) : Prop :=
  ∀ r ∈ rows, ∀ id t, db.transfers.lookup id = some t → Linked r id t →
    (∃ name, Named db t r.row.accountId name) →
    ∃ id' t', db.transfers.lookup id' = some t' ∧ Represents rows id' t' r ∧
      ∃ name, Named db t' r.row.accountId name

/-- **The names are complete and correct** exactly if all rows are represented. -/
theorem counterparties_iff (horder : ∀ l, (order l).Perm l)
    (hids : (rows.map TransactionRow.id).Nodup) :
    CorrectNames order db rows ↔ AllRepresented db rows := by
  have hsame : ∀ r ∈ rows, ∀ r', r' ∈ rows → r'.id = r.id → r' = r := fun r hr r' hr' hid =>
    List.inj_on_of_nodup_map hids hr' hr hid
  constructor
  · intro h r hr id t ht hlinked hname
    obtain ⟨id', t', r', ht', hr', hid, hname'⟩ :=
      (resolved_isSome horder hids).1 (h.complete r hr id t ht hlinked hname)
    obtain rfl := hsame r hr r' hr'.mem hid
    exact ⟨id', t', ht', hr', hname'⟩
  · intro h
    constructor
    · intro txId hsome
      obtain ⟨_, _, r, _, hr, hid, _⟩ := (resolved_isSome horder hids).1 hsome
      exact ⟨r, hr.mem, hid⟩
    · intro r hr name hlookup
      obtain ⟨id, t, r', ht, hr', hid, hname⟩ := resolved_sound horder hids hlookup
      obtain rfl := hsame r hr r' hr'.mem hid
      exact ⟨id, t, ht, hr'.linked, hname⟩
    · intro r hr id t ht hlinked hname
      obtain ⟨id', t', ht', hr', hname'⟩ := h r hr id t ht hlinked hname
      exact (resolved_isSome horder hids).2 ⟨id', t', r, ht', hr', rfl, hname'⟩

/-- **The names on a page** of the list are those of the other sides. -/
theorem item_named (horder : ∀ l, (order l).Perm l) (hids : (rows.map TransactionRow.id).Nodup)
    {item : TransactionDto} (hitem : item ∈ pageItems (fun db rows txId =>
      (resolveCounterparties order db rows).lookup txId) db rows) {name : String}
    (hname : item.counterpartyName = some name) :
    ∃ r ∈ rows, r.id = item.id ∧ ∃ id t, db.transfers.lookup id = some t ∧ Linked r id t ∧
      Named db t r.row.accountId name := by
  obtain ⟨x, hx, rfl⟩ := List.mem_map.1 hitem
  have hvisible : ((rows.filter fun r => !isHiddenByOverride r).map TransactionRow.id).Nodup :=
    hids.sublist (List.filter_sublist.map _)
  obtain ⟨id, t, r, ht, hr, hid, hnamed⟩ := resolved_sound horder hvisible hname
  exact ⟨r, List.mem_of_mem_filter hr.mem, hid, id, t, ht, hr.linked, hnamed⟩

end

/-! ## A payment from Ann to Bob -/

/-- Ann paid Bob by transfer 7: row 71 is hers, row 72 his. -/
def samplePaid : Transfer where
  kind := .p2p
  status := .posted
  fromAccountId := 10
  toAccountId := some 20
  externalRef := none
  amountCents := 2500
  feeCents := 0
  instant := true
  initiatedByUserId := 1
  settledAt := some 1775037600000
  failureReason := none
  idempotencyKey := "key-7"
  pendingTransactionId := some 71
  settledTransactionId := some 72
  requiresReview := false
  reviewDecision := none
  reviewedAt := none
  reviewedByUserId := none
  reviewReason := none

def samplePaidDb : Db :=
  { sampleDb with transfers := (∅ : Table Uuid Transfer).insert 7 samplePaid }

/-- Bob's row. -/
def sampleReceived (metadata : Option TransactionMetadata) : TransactionRow where
  id := 72
  row := ⟨20, .p2pIn, .posted, 2500, "Payment received", .income, none, 1775037600000,
    some 1775037600000, metadata⟩
  merchant := none
  override := none

/-- The row that the settlement wrote. -/
theorem correctNames_bob :
    CorrectNames id samplePaidDb [sampleReceived (some ⟨some 7, none, none⟩)] := by
  refine (counterparties_iff (fun _ => .refl _) (by decide)).2 fun r hr _ _ _ _ _ => ?_
  obtain rfl := List.mem_singleton.1 hr
  refine ⟨7, samplePaid, rfl, .inl ⟨[], [], rfl, rfl, by simp⟩, "Ann", 10, _, _, ?_, rfl, by decide,
    rfl, by decide +kernel⟩
  exact .inr ⟨rfl, rfl⟩

/-- The same row without its metadata: transfer 7 names row 71, which is not on the page. -/
theorem stripped_row_unnamed : ¬ CorrectNames id samplePaidDb [sampleReceived none] := by
  intro h
  have hnamed : ∃ name, Named samplePaidDb samplePaid 20 name :=
    ⟨"Ann", 10, _, _, .inr ⟨rfl, rfl⟩, rfl, by decide, rfl, by decide +kernel⟩
  have hsome := h.complete _ List.mem_cons_self 7 samplePaid rfl (.inr (.inr rfl)) hnamed
  revert hsome
  decide +kernel

end BankDemo.Transactions
