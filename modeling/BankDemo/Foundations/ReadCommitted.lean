import BankDemo.Foundations.Prog
import BankDemo.Foundations.Table

/-!
# A table under read-committed isolation

Transactions that overlap, statement by statement. Every transaction has row versions of its own
until it commits; a statement sees the rows that are committed when it begins, and the versions of
its own transaction over them (`view`). A row of which another open transaction has a version is
locked: an update waits for it (`free`), and then looks at the row as it is by then.

* `select`, `insertRow`, `updateRow`, `commit` are the statements, as actions of a program. An
  `UPDATE ... WHERE` is a `select` of the keys and an `updateRow` for each of them.
* `Moves` is what they can do, for rows that change along a relation `R`;
* `Isolated` is the invariant of the table: no two open transactions have versions of one row, and
  every version comes from the committed row (`Moves.isolated`), so that committed rows only change
  along `R` (`Moves.committed`).
-/

namespace BankDemo

variable {κ ρ ε α : Type} [DecidableEq κ]

/-- Committed rows, and the row versions of the open transactions. -/
structure ReadCommitted (κ ρ : Type) where
  committed : Table κ ρ
  pending : Table ℕ (Table κ ρ)

namespace ReadCommitted

/-- The versions of a transaction. -/
def writes (s : ReadCommitted κ ρ) (i : ℕ) : Table κ ρ := (s.pending.lookup i).getD ∅

/-- What the statements of a transaction see. -/
def view (s : ReadCommitted κ ρ) (i : ℕ) : Table κ ρ := s.writes i ∪ s.committed

/-- No other open transaction has a version of the row. -/
def free (i : ℕ) (k : κ) (s : ReadCommitted κ ρ) : Bool :=
  s.pending.entries.all fun e => e.1 = i ∨ e.2.lookup k = none

/-- A new version of a row. -/
def write (i : ℕ) (k : κ) (r : ρ) (s : ReadCommitted κ ρ) : ReadCommitted κ ρ :=
  { s with pending := s.pending.insert i ((s.writes i).insert k r) }

/-- The versions of the transaction become the committed rows. -/
def commitAll (i : ℕ) (s : ReadCommitted κ ρ) : ReadCommitted κ ρ where
  committed := s.view i
  pending := s.pending.erase i

/-- The transaction is undone. -/
def rollback (i : ℕ) (s : ReadCommitted κ ρ) : ReadCommitted κ ρ :=
  { s with pending := s.pending.erase i }

/-! ## Statements -/

/-- `SELECT`. -/
def select (i : ℕ) (f : Table κ ρ → α) : Prog (ReadCommitted κ ρ) ε α := .read fun s => f (s.view i)

/-- `INSERT`: waits for other transactions with versions of the row, and fails, with the
transaction, on a row that is there or that a unique column excludes. -/
def insertRow (i : ℕ) (k : κ) (r : ρ) (excludes : ρ → Bool) (e : ε) :
    Prog (ReadCommitted κ ρ) ε Unit :=
  .act (free i k)
    (fun s => if ((s.view i).lookup k).isSome ∨ ((s.view i).findRow excludes).isSome then
      s.rollback i else s.write i k r)
    fun s => if ((s.view i).lookup k).isSome ∨ ((s.view i).findRow excludes).isSome then .fail e
      else .ret ()

/-- What an `UPDATE` does to a row it has found, once the row is free: the condition is checked
again. -/
def updated (i : ℕ) (k : κ) (p : ρ → Bool) (f : ρ → ρ) (s : ReadCommitted κ ρ) :
    ReadCommitted κ ρ :=
  match (s.view i).lookup k with
  | some r => if p r then s.write i k (f r) else s
  | none => s

@[inherit_doc updated]
def updateRow (i : ℕ) (k : κ) (p : ρ → Bool) (f : ρ → ρ) : Prog (ReadCommitted κ ρ) ε Unit :=
  .modify (free i k) (updated i k p f)

/-- `COMMIT`. -/
def commit (i : ℕ) : Prog (ReadCommitted κ ρ) ε Unit := .modify (fun _ => true) (commitAll i)

theorem run_select {i : ℕ} {f : Table κ ρ → α} {s : ReadCommitted κ ρ} :
    (select i f : Prog (ReadCommitted κ ρ) ε α).run s = (.ok (f (s.view i)), s) := rfl

theorem run_insertRow {i : ℕ} {k : κ} {r : ρ} {excludes : ρ → Bool} {e : ε}
    {s : ReadCommitted κ ρ} : (insertRow i k r excludes e).run s =
      if ((s.view i).lookup k).isSome ∨ ((s.view i).findRow excludes).isSome then
        (.error e, s.rollback i) else (.ok (), s.write i k r) := by
  simp only [insertRow, Prog.run]
  split <;> rfl

/-- An insertion, then more. -/
theorem does_insertRow {β : Type} {G : List (ReadCommitted κ ρ × ReadCommitted κ ρ) → Prop}
    {Q : List (ReadCommitted κ ρ × ReadCommitted κ ρ) → Except ε β → Prop}
    {own : List (ReadCommitted κ ρ × ReadCommitted κ ρ)} {i : ℕ} {k : κ} {r : ρ}
    {excludes : ρ → Bool} {e : ε} {p : Unit → Prog (ReadCommitted κ ρ) ε β}
    (hnew : ∀ s, s.free i k = true → (s.view i).lookup k = none →
      G ((s, s.write i k r) :: own) ∧ (p ()).Does G Q ((s, s.write i k r) :: own))
    (hclash : ∀ s, G ((s, s.rollback i) :: own) ∧ Q ((s, s.rollback i) :: own) (.error e)) :
    (insertRow i k r excludes e >>= p).Does G Q own := by
  refine Prog.does_bind fun s hfree => ?_
  by_cases h : ((s.view i).lookup k).isSome ∨ ((s.view i).findRow excludes).isSome
  · simp only [if_pos h]
    exact hclash s
  · simp only [if_neg h]
    refine hnew s hfree ?_
    rw [← Option.not_isSome_iff_eq_none]
    exact fun hsome => h (.inl hsome)

/-! ## Versions -/

variable {s s' : ReadCommitted κ ρ} {i j : ℕ} {k k' : κ} {r r' : ρ}

theorem lookup_view : (s.view i).lookup k = ((s.writes i).lookup k).or (s.committed.lookup k) := by
  unfold view
  cases hk : (s.writes i).lookup k with
  | none => rw [AList.lookup_union_right (AList.lookup_eq_none.1 hk), Option.none_or]
  | some r =>
    have hmem : k ∈ s.writes i := by
      rw [← AList.lookup_isSome, hk]
      rfl
    rw [AList.lookup_union_left hmem, hk, Option.some_or]

theorem writes_write : (s.write i k r).writes j =
    if j = i then (s.writes i).insert k r else s.writes j := by
  simp only [write, writes]
  rw [Table.lookup_insert_ite]
  split <;> rfl

theorem lookup_view_write : ((s.write i k r).view i).lookup k' =
    if k' = k then some r else (s.view i).lookup k' := by
  rw [lookup_view, lookup_view, writes_write, if_pos rfl, Table.lookup_insert_ite]
  split <;> rfl

omit [DecidableEq κ] in
theorem writes_erase {pending : Table ℕ (Table κ ρ)} (hne : j ≠ i) :
    ((pending.erase i).lookup j).getD ∅ = (pending.lookup j).getD ∅ := by
  rw [AList.lookup_erase_ne hne]

omit [DecidableEq κ] in
theorem writes_erase_self {pending : Table ℕ (Table κ ρ)} :
    ((pending.erase i).lookup i).getD ∅ = (∅ : Table κ ρ) := by
  rw [AList.lookup_erase]
  rfl

theorem free_iff : s.free i k = true ↔ ∀ j, j ≠ i → (s.writes j).lookup k = none := by
  simp only [free, List.all_eq_true, decide_eq_true_eq, writes]
  constructor
  · intro h j hj
    cases hw : s.pending.lookup j with
    | none => rfl
    | some w => exact (h ⟨j, w⟩ (Table.mem_entries_iff.2 hw)).resolve_left hj
  · rintro h ⟨j, w⟩ hmem
    by_cases hj : j = i
    · exact .inl hj
    · have hnone := h j hj
      rw [Table.mem_entries_iff.1 hmem] at hnone
      exact .inr hnone

/-! ## What the statements of a transaction can do -/

/-- A step of transaction `i`, with rows that change along `R`. -/
inductive Moves (R : ρ → ρ → Prop) (i : ℕ) : ReadCommitted κ ρ → ReadCommitted κ ρ → Prop
  | read {s : ReadCommitted κ ρ} : Moves R i s s
  | insert {s : ReadCommitted κ ρ} {k : κ} {r : ρ} (hfree : s.free i k = true)
      (hnew : (s.view i).lookup k = none) : Moves R i s (s.write i k r)
  | update {s : ReadCommitted κ ρ} {k : κ} {r r' : ρ} (hfree : s.free i k = true)
      (hrow : (s.view i).lookup k = some r) (hR : R r r') : Moves R i s (s.write i k r')
  | commit {s : ReadCommitted κ ρ} : Moves R i s (s.commitAll i)
  | rollback {s : ReadCommitted κ ρ} : Moves R i s (s.rollback i)

/-- Open transactions have versions of different rows, each after the committed one. -/
structure Isolated (R : ρ → ρ → Prop) (s : ReadCommitted κ ρ) : Prop where
  exclusive : ∀ {i j k v v'}, (s.writes i).lookup k = some v → (s.writes j).lookup k = some v' →
    i = j
  version : ∀ {i k v r}, (s.writes i).lookup k = some v → s.committed.lookup k = some r → R r v

variable {R : ρ → ρ → Prop}

theorem isolated_start (s : Table κ ρ) : Isolated R ⟨s, ∅⟩ where
  exclusive h := by cases h
  version h := by cases h

/-- Other transactions keep their versions. -/
theorem Moves.writes_other (h : Moves R i s s') (hj : j ≠ i) : s'.writes j = s.writes j := by
  cases h with
  | read => rfl
  | insert _ _ => rw [writes_write, if_neg hj]
  | update _ _ _ => rw [writes_write, if_neg hj]
  | commit => exact writes_erase hj
  | rollback => exact writes_erase hj

/-- A version written while the row is free leaves the table isolated. -/
theorem Isolated.write (hs : Isolated R s) (hfree : s.free i k = true)
    (hR : ∀ r₀, s.committed.lookup k = some r₀ → R r₀ r) : Isolated R (s.write i k r) := by
  have hother := free_iff.1 hfree
  have hversion : ∀ {j k' v}, ((s.write i k r).writes j).lookup k' = some v →
      (j = i ∧ k' = k ∧ v = r) ∨ (s.writes j).lookup k' = some v := by
    intro j k' v hv
    rw [writes_write] at hv
    split at hv
    · rename_i hj
      rw [Table.lookup_insert_ite] at hv
      split at hv
      · rename_i hk
        exact .inl ⟨hj, hk, (Option.some.inj hv).symm⟩
      · rw [hj]
        exact .inr hv
    · exact .inr hv
  refine ⟨?_, ?_⟩
  · intro i' j' k' v v' hi hj
    rcases hversion hi with ⟨rfl, rfl, rfl⟩ | hold
    · rcases hversion hj with ⟨rfl, -, -⟩ | hold'
      · rfl
      · by_contra hne
        rw [hother j' fun h => hne h.symm] at hold'
        cases hold'
    · rcases hversion hj with ⟨rfl, rfl, rfl⟩ | hold'
      · by_contra hne
        rw [hother i' hne] at hold
        cases hold
      · exact hs.exclusive hold hold'
  · intro j k' v r₀ hv hr₀
    rcases hversion hv with ⟨rfl, rfl, rfl⟩ | hv
    · exact hR r₀ hr₀
    · exact hs.version hv hr₀

/-- The table stays isolated. -/
theorem Moves.isolated (htrans : ∀ {a b c}, R a b → R b c → R a c) (hs : Isolated R s)
    (h : Moves R i s s') : Isolated R s' := by
  have herase : ∀ {committed : Table κ ρ} {j k v},
      ((⟨committed, s.pending.erase i⟩ : ReadCommitted κ ρ).writes j).lookup k = some v →
        j ≠ i ∧ (s.writes j).lookup k = some v := by
    intro committed j k v hv
    by_cases hj : j = i
    · subst hj
      simp only [writes, writes_erase_self] at hv
      cases hv
    · exact ⟨hj, by simpa only [writes, writes_erase hj] using hv⟩
  cases h with
  | read => exact hs
  | @insert k r hfree hnew =>
    refine hs.write hfree fun r₀ hr₀ => ?_
    rw [lookup_view, hr₀] at hnew
    cases hw : (s.writes i).lookup k <;> rw [hw] at hnew <;> cases hnew
  | @update k r r' hfree hrow hR =>
    refine hs.write hfree fun r₀ hr₀ => ?_
    rw [lookup_view, hr₀] at hrow
    cases hw : (s.writes i).lookup k with
    | none =>
      rw [hw] at hrow
      obtain rfl := Option.some.inj hrow
      exact hR
    | some v =>
      rw [hw] at hrow
      obtain rfl := Option.some.inj hrow
      exact htrans (hs.version hw hr₀) hR
  | commit =>
    refine ⟨fun hi hj => hs.exclusive (herase hi).2 (herase hj).2, fun {j k v r} hv hr => ?_⟩
    obtain ⟨hj, hv⟩ := herase hv
    -- a row of which another transaction has a version is not one that was just committed
    have hnone : (s.writes i).lookup k = none := by
      by_contra hsome
      obtain ⟨v', hv'⟩ := Option.ne_none_iff_exists'.1 hsome
      exact hj (hs.exclusive hv hv')
    have hr' : (s.view i).lookup k = some r := hr
    rw [lookup_view, hnone] at hr'
    exact hs.version hv hr'
  | rollback =>
    exact ⟨fun hi hj => hs.exclusive (herase hi).2 (herase hj).2,
      fun hv hr => hs.version (herase hv).2 hr⟩

/-- Committed rows stay, and change along `R`. -/
theorem Moves.committed (hrefl : ∀ r, R r r) (hs : Isolated R s) (h : Moves R i s s')
    (hr : s.committed.lookup k = some r) : ∃ r', s'.committed.lookup k = some r' ∧ R r r' := by
  cases h with
  | commit =>
    refine ⟨((s.writes i).lookup k).getD r, ?_, ?_⟩
    · show (s.view i).lookup k = _
      rw [lookup_view, hr]
      cases (s.writes i).lookup k <;> rfl
    · cases hw : (s.writes i).lookup k with
      | none => exact hrefl r
      | some v => exact hs.version hw hr
  | read | insert _ _ | update _ _ _ | rollback => exact ⟨r, hr, hrefl r⟩

end ReadCommitted

end BankDemo
