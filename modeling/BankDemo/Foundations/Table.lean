import Mathlib.Data.List.AList
import Mathlib.Data.List.Find
import Mathlib.Algebra.BigOperators.Group.List.Basic
import Mathlib.Algebra.Order.BigOperators.Group.List
import Mathlib.Tactic.Abel
import Mathlib.Tactic.Ring

/-!
# Keyed tables

A database table is Mathlib's `AList`: rows under distinct keys. Inserting under an existing key
replaces its row. The lemmas here are what arguments about tables need beyond Mathlib's:

* `lookup_insert_ite`: the rows after an insertion;
* `Created` and `Updated`, the two ways a statement changes one row, and `Replaced`, for several
  updates of one row;
* `sum` and `total`, the sum of a quantity over the rows, and how an insertion, a deletion or a
  change of the quantity on one row changes it (`sum_insert_new`, `sum_insert_old`, `sum_erase`,
  `sum_change`);
* `Distinct`, for columns without repeated values;
* `deleteMany` and `updateMany`, statements on all rows with a property, and `count`, how many such
  rows there are;
* `findRow`, the search by a column other than the key, and `latest`, that for the newest row;
* `values`, what a column holds.
-/

namespace BankDemo

/-- A table: rows `ρ` under distinct keys `κ`. -/
abbrev Table (κ ρ : Type) := AList fun _ : κ => ρ

namespace Table

variable {κ ρ : Type} [DecidableEq κ]

theorem lookup_insert_ite (t : Table κ ρ) (k a : κ) (r : ρ) :
    (t.insert k r).lookup a = if a = k then some r else t.lookup a := by
  split
  · rename_i h
    subst h
    exact AList.lookup_insert t
  · rename_i h
    exact AList.lookup_insert_ne h

/-- A row was added under an unused key. -/
def Created (k : κ) (r : ρ) (t t' : Table κ ρ) : Prop := t.lookup k = none ∧ t' = t.insert k r

/-- The row under a key was changed by `f`. -/
def Updated (k : κ) (f : ρ → ρ) (t t' : Table κ ρ) : Prop :=
  ∃ r, t.lookup k = some r ∧ t' = t.insert k (f r)

/-- The row under a key, if there is one, was changed by `f`. -/
def UpdatedMany (k : κ) (f : ρ → ρ) (t t' : Table κ ρ) : Prop :=
  Updated k f t t' ∨ (t.lookup k = none ∧ t' = t)

/-- The row under an optional key was changed by `f`. -/
def Updated? (k : Option κ) (f : ρ → ρ) (t t' : Table κ ρ) : Prop :=
  match k with
  | some k => Updated k f t t'
  | none => t' = t

theorem Created.lookup {k : κ} {r : ρ} {t t' : Table κ ρ} (h : Created k r t t') (a : κ) :
    t'.lookup a = if a = k then some r else t.lookup a := by
  rw [h.2, lookup_insert_ite]

theorem Created.lookup_old {k : κ} {r : ρ} {t t' : Table κ ρ} (h : Created k r t t') {a : κ}
    {x : ρ} (hx : t.lookup a = some x) : t'.lookup a = some x := by
  rw [h.lookup, if_neg]
  · exact hx
  · rintro rfl
    rw [h.1] at hx
    cases hx

theorem Updated.lookup {k : κ} {f : ρ → ρ} {t t' : Table κ ρ} (h : Updated k f t t') (a : κ) :
    t'.lookup a = if a = k then (t.lookup a).map f else t.lookup a := by
  obtain ⟨r, hr, rfl⟩ := h
  rw [lookup_insert_ite]
  split
  · rename_i ha
    rw [ha, hr]
    rfl
  · rfl

theorem UpdatedMany.lookup {k : κ} {f : ρ → ρ} {t t' : Table κ ρ} (h : UpdatedMany k f t t')
    (a : κ) : t'.lookup a = if a = k then (t.lookup a).map f else t.lookup a := by
  rcases h with h | ⟨hk, rfl⟩
  · exact h.lookup a
  · split
    · rename_i ha
      rw [ha, hk]
      rfl
    · rfl

/-- The sum over the rows of what `f` says of a key and its row. -/
def sum (t : Table κ ρ) (f : κ → ρ → ℤ) : ℤ := (t.entries.map fun e => f e.1 e.2).sum

/-- The sum of `f` over the rows. -/
def total (t : Table κ ρ) (f : ρ → ℤ) : ℤ := (t.entries.map fun e => f e.2).sum

/-- The sum over a list with distinct keys, with one row set apart. -/
theorem sum_kerase (f : κ → ρ → ℤ) : ∀ (l : List (Sigma fun _ : κ => ρ)) {k : κ} {r : ρ},
    l.dlookup k = some r →
      (l.map fun e => f e.1 e.2).sum = f k r + ((l.kerase k).map fun e => f e.1 e.2).sum
  | [], k, r, h => by simp at h
  | ⟨k', r'⟩ :: l, k, r, h => by
    by_cases hk : k = k'
    · subst hk
      rw [List.dlookup_cons_eq] at h
      obtain rfl := Option.some.inj h
      simp
    · rw [List.dlookup_cons_ne _ _ hk] at h
      rw [List.kerase_cons_ne hk]
      simp only [List.map_cons, List.sum_cons, sum_kerase f l h]
      abel

theorem sum_insert_new {t : Table κ ρ} {k : κ} (hk : t.lookup k = none) (r : ρ) (f : κ → ρ → ℤ) :
    sum (t.insert k r) f = f k r + sum t f := by
  unfold sum
  rw [AList.entries_insert_of_notMem (AList.lookup_eq_none.1 hk), List.map_cons, List.sum_cons]

theorem sum_insert_old {t : Table κ ρ} {k : κ} {old : ρ} (hk : t.lookup k = some old) (r : ρ)
    (f : κ → ρ → ℤ) : sum (t.insert k r) f = sum t f - f k old + f k r := by
  have h := sum_kerase f t.entries hk
  unfold sum
  rw [h, AList.entries_insert, List.map_cons, List.sum_cons]
  abel

theorem sum_erase {t : Table κ ρ} {k : κ} {r : ρ} (hk : t.lookup k = some r) (f : κ → ρ → ℤ) :
    sum (t.erase k) f = sum t f - f k r := by
  have h := sum_kerase f t.entries hk
  have herase : (t.erase k).entries = t.entries.kerase k := rfl
  unfold sum
  rw [h, herase]
  abel

/-- Sums that agree on every row. -/
theorem sum_congr {t : Table κ ρ} {f g : κ → ρ → ℤ}
    (h : ∀ k r, t.lookup k = some r → f k r = g k r) : sum t f = sum t g := by
  unfold sum
  congr 1
  apply List.map_congr_left
  intro e he
  exact h e.1 e.2 (List.mem_dlookup t.nodupKeys he)

/-- Sums that agree on every row but one. -/
theorem sum_change {t : Table κ ρ} {f g : κ → ρ → ℤ} {k : κ} {r : ρ} (hk : t.lookup k = some r)
    (h : ∀ k' r', k' ≠ k → f k' r' = g k' r') : sum t g = sum t f - f k r + g k r := by
  have hrest : sum (t.erase k) g = sum (t.erase k) f := by
    apply sum_congr
    intro k' r' hk'
    have hne : k' ≠ k := by
      rintro rfl
      rw [AList.lookup_erase] at hk'
      cases hk'
    exact (h k' r' hne).symm
  rw [sum_erase hk, sum_erase hk] at hrest
  omega

omit [DecidableEq κ] in
theorem sum_sub (t : Table κ ρ) (f g : κ → ρ → ℤ) :
    sum t (fun k r => f k r - g k r) = sum t f - sum t g := by
  unfold sum
  induction t.entries with
  | nil => rfl
  | cons e l ih =>
    simp only [List.map_cons, List.sum_cons, ih]
    abel

/-- A sum over the keys is the same for tables with the same keys. -/
theorem sum_keys_congr {t t' : Table κ ρ} (f : κ → ℤ)
    (h : ∀ k, (t'.lookup k).isSome = (t.lookup k).isSome) :
    sum t' (fun k _ => f k) = sum t fun k _ => f k := by
  have hkeys : ∀ t : Table κ ρ, sum t (fun k _ => f k) = (t.keys.map f).sum := by
    intro t
    simp [sum, AList.keys, List.keys, Function.comp_def]
  have hperm : t'.keys.Perm t.keys := by
    refine (List.perm_ext_iff_of_nodup t'.keys_nodup t.keys_nodup).2 fun k => ?_
    rw [← AList.mem_keys, ← AList.mem_keys, ← AList.lookup_isSome, ← AList.lookup_isSome, h k]
  rw [hkeys, hkeys]
  exact (hperm.map f).sum_eq

theorem total_insert_new {t : Table κ ρ} {k : κ} (hk : t.lookup k = none) (r : ρ) (f : ρ → ℤ) :
    total (t.insert k r) f = f r + total t f :=
  sum_insert_new hk r fun _ r => f r

theorem total_insert_old {t : Table κ ρ} {k : κ} {old : ρ} (hk : t.lookup k = some old) (r : ρ)
    (f : ρ → ℤ) : total (t.insert k r) f = total t f - f old + f r :=
  sum_insert_old hk r fun _ r => f r

omit [DecidableEq κ] in
/-- A sum of zeros. -/
theorem total_eq_zero {t : Table κ ρ} {f : ρ → ℤ} (hf : ∀ e ∈ t.entries, f e.2 = 0) :
    total t f = 0 :=
  List.sum_eq_zero fun x hx => by
    obtain ⟨e, he, rfl⟩ := List.mem_map.1 hx
    exact hf e he

/-- The row `r` under a key was replaced by `r'`, or there was nothing to do. -/
def Replaced (k : κ) (r r' : ρ) (t t' : Table κ ρ) : Prop :=
  t.lookup k = some r ∧ (t' = t.insert k r' ∨ (t' = t ∧ r' = r))

theorem Replaced.refl {k : κ} {r : ρ} {t : Table κ ρ} (h : t.lookup k = some r) :
    Replaced k r r t t := ⟨h, .inr ⟨rfl, rfl⟩⟩

theorem Replaced.trans {k : κ} {r r₁ r₂ : ρ} {t t₁ t₂ : Table κ ρ} (h : Replaced k r r₁ t t₁)
    (h' : Replaced k r₁ r₂ t₁ t₂) : Replaced k r r₂ t t₂ := by
  refine ⟨h.1, ?_⟩
  rcases h.2 with rfl | ⟨rfl, rfl⟩
  · rcases h'.2 with rfl | ⟨rfl, rfl⟩
    · exact .inl (AList.insert_insert t)
    · exact .inl rfl
  · exact h'.2

theorem Replaced.lookup {k : κ} {r r' : ρ} {t t' : Table κ ρ} (h : Replaced k r r' t t') (a : κ) :
    t'.lookup a = if a = k then some r' else t.lookup a := by
  rcases h.2 with rfl | ⟨rfl, rfl⟩
  · exact lookup_insert_ite t k a r'
  · split
    · rename_i ha
      rw [ha, h.1]
    · rfl

/-- What the new row has of the old one, each row has of the row it was. -/
theorem Replaced.lookup_keeps {k : κ} {r r' : ρ} {t t' : Table κ ρ} (h : Replaced k r r' t t')
    {β : Type*} (f : ρ → β) (hf : f r' = f r) {a : κ} {x : ρ} (hx : t'.lookup a = some x) :
    ∃ y, t.lookup a = some y ∧ f x = f y := by
  rw [h.lookup] at hx
  split at hx
  · rename_i ha
    obtain rfl := Option.some.inj hx
    exact ⟨r, by rw [ha]; exact h.1, hf⟩
  · exact ⟨x, hx, rfl⟩

theorem Replaced.total {k : κ} {r r' : ρ} {t t' : Table κ ρ} (h : Replaced k r r' t t')
    (f : ρ → ℤ) : t'.total f = t.total f - f r + f r' := by
  rcases h.2 with rfl | ⟨rfl, rfl⟩
  · exact total_insert_old h.1 r' f
  · abel

theorem Updated.replaced {k : κ} {f : ρ → ρ} {t t' : Table κ ρ} (h : Updated k f t t') {r : ρ}
    (hr : t.lookup k = some r) : Replaced k r (f r) t t' := by
  obtain ⟨r', hr', rfl⟩ := h
  obtain rfl := Option.some.inj (hr.symm.trans hr')
  exact ⟨hr, .inl rfl⟩

theorem UpdatedMany.replaced {k : κ} {f : ρ → ρ} {t t' : Table κ ρ} (h : UpdatedMany k f t t')
    {r : ρ} (hr : t.lookup k = some r) : Replaced k r (f r) t t' := by
  rcases h with h | ⟨hk, rfl⟩
  · exact h.replaced hr
  · rw [hk] at hr
    cases hr

/-- No two rows have the same value of `f`. -/
def Distinct {β : Type*} (t : Table κ ρ) (f : ρ → β) : Prop :=
  ∀ k k' r r', t.lookup k = some r → t.lookup k' = some r' → f r = f r' → k = k'

/-- A row whose value no row under another key has keeps the values distinct. -/
theorem Distinct.insert {β : Type*} {t : Table κ ρ} {f : ρ → β} (h : t.Distinct f) {k : κ} {r : ρ}
    (hfree : ∀ k' r', k' ≠ k → t.lookup k' = some r' → f r' ≠ f r) :
    Distinct (AList.insert k r t) f := by
  intro a b x y hx hy hxy
  rw [lookup_insert_ite] at hx hy
  split at hx
  · rename_i ha
    split at hy
    · rename_i hb
      rw [ha, hb]
    · rename_i hb
      obtain rfl := Option.some.inj hx
      exact absurd hxy.symm (hfree b y hb hy)
  · rename_i ha
    split at hy
    · obtain rfl := Option.some.inj hy
      exact absurd hxy (hfree a x ha hx)
    · exact h a b x y hx hy hxy

theorem Distinct.subset {β : Type*} {t t' : Table κ ρ} {f : ρ → β} (h : t.Distinct f)
    (hsub : ∀ k r, t'.lookup k = some r → t.lookup k = some r) : t'.Distinct f :=
  fun a b x y hx hy hxy => h a b x y (hsub a x hx) (hsub b y hy) hxy

/-! ## Many rows at a time -/

/-- The rows without those `p` holds of: `deleteMany`. -/
def deleteMany (t : Table κ ρ) (p : κ → ρ → Bool) : Table κ ρ where
  entries := t.entries.filter fun e => !p e.1 e.2
  nodupKeys := t.nodupKeys.sublist List.filter_sublist

/-- How many rows `p` holds of. -/
def count (t : Table κ ρ) (p : κ → ρ → Bool) : ℕ := (t.entries.filter fun e => p e.1 e.2).length

/-- The rows that `p` holds of, changed by `f`: `updateMany`. -/
def updateMany (t : Table κ ρ) (p : κ → ρ → Bool) (f : ρ → ρ) : Table κ ρ where
  entries := t.entries.map fun e => ⟨e.1, if p e.1 e.2 then f e.2 else e.2⟩
  nodupKeys := by
    have hkeys : (t.entries.map fun e => (⟨e.1, if p e.1 e.2 then f e.2 else e.2⟩ :
        Sigma fun _ : κ => ρ)).keys = t.entries.keys := by
      simp [List.keys]
    rw [List.NodupKeys, hkeys]
    exact t.nodupKeys

theorem mem_entries_iff {t : Table κ ρ} {k : κ} {r : ρ} :
    (⟨k, r⟩ : Sigma fun _ : κ => ρ) ∈ t.entries ↔ t.lookup k = some r :=
  ⟨fun h => List.mem_dlookup t.nodupKeys h, fun h => List.of_mem_dlookup h⟩

theorem lookup_deleteMany {t : Table κ ρ} {p : κ → ρ → Bool} {k : κ} {r : ρ} :
    (t.deleteMany p).lookup k = some r ↔ t.lookup k = some r ∧ p k r = false := by
  rw [← mem_entries_iff, ← mem_entries_iff]
  simp [deleteMany, List.mem_filter]

theorem lookup_updateMany (t : Table κ ρ) (p : κ → ρ → Bool) (f : ρ → ρ) (k : κ) :
    (t.updateMany p f).lookup k = (t.lookup k).map fun r => if p k r then f r else r := by
  cases hk : t.lookup k with
  | none =>
    rw [Option.map_none, ← Option.not_isSome_iff_eq_none, Option.isSome_iff_exists]
    rintro ⟨r, hr⟩
    obtain ⟨e, he, heq⟩ := List.mem_map.1 (mem_entries_iff.2 hr)
    cases heq
    rw [mem_entries_iff.1 he] at hk
    cases hk
  | some r =>
    rw [Option.map_some, ← mem_entries_iff]
    exact List.mem_map.2 ⟨⟨k, r⟩, mem_entries_iff.2 hk, rfl⟩

omit [DecidableEq κ] in
/-- What a deletion takes from a sum. -/
theorem sum_deleteMany (t : Table κ ρ) (p : κ → ρ → Bool) (f : κ → ρ → ℤ) :
    sum (t.deleteMany p) f = sum t fun k r => if p k r then 0 else f k r := by
  show ((t.entries.filter fun e => !p e.1 e.2).map fun e => f e.1 e.2).sum =
    (t.entries.map fun e => if p e.1 e.2 then 0 else f e.1 e.2).sum
  induction t.entries with
  | nil => rfl
  | cons e l ih =>
    cases hp : p e.1 e.2 with
    | true => simpa [hp] using ih
    | false => simpa [hp] using ih

omit [DecidableEq κ] in
/-- A count is a sum of ones. -/
theorem count_eq_sum (t : Table κ ρ) (p : κ → ρ → Bool) :
    (t.count p : ℤ) = sum t fun k r => if p k r then 1 else 0 := by
  show ((t.entries.filter fun e => p e.1 e.2).length : ℤ) =
    (t.entries.map fun e => if p e.1 e.2 then 1 else 0).sum
  induction t.entries with
  | nil => rfl
  | cons e l ih =>
    cases hp : p e.1 e.2 with
    | true =>
      simp only [List.filter_cons, hp, if_true, List.length_cons, List.map_cons, List.sum_cons, ← ih]
      push_cast
      ring
    | false => simpa [hp] using ih

theorem count_eq_zero {t : Table κ ρ} {p : κ → ρ → Bool}
    (h : ∀ k r, t.lookup k = some r → p k r = false) : t.count p = 0 := by
  have hsum := count_eq_sum t p
  rw [sum_congr (g := fun _ _ => 0) fun k r hk => by simp [h k r hk]] at hsum
  simpa [sum] using hsum

/-- There is one row that `p` holds of. -/
theorem count_eq_one {t : Table κ ρ} {p : κ → ρ → Bool} :
    t.count p = 1 ↔ ∃ k r, t.lookup k = some r ∧ p k r = true ∧
      ∀ k' r', t.lookup k' = some r' → p k' r' = true → k' = k := by
  have hmem : ∀ e : Sigma fun _ : κ => ρ, e ∈ t.entries.filter (fun e => p e.1 e.2) ↔
      t.lookup e.1 = some e.2 ∧ p e.1 e.2 = true := fun e => by
    rw [List.mem_filter, ← mem_entries_iff]
  constructor
  · intro h
    obtain ⟨e, he⟩ := List.length_eq_one_iff.1 h
    rw [he] at hmem
    obtain ⟨hlookup, hp⟩ := (hmem e).1 (List.mem_singleton_self e)
    refine ⟨e.1, e.2, hlookup, hp, fun k' r' hlookup' hp' => ?_⟩
    have heq := List.mem_singleton.1 ((hmem ⟨k', r'⟩).2 ⟨hlookup', hp'⟩)
    rw [← heq]
  · rintro ⟨k, r, hlookup, hp, hunique⟩
    have hin := (hmem ⟨k, r⟩).2 ⟨hlookup, hp⟩
    have hall : ∀ e ∈ t.entries.filter fun e => p e.1 e.2, e = ⟨k, r⟩ := by
      rintro ⟨k', r'⟩ he
      obtain ⟨hlookup', hp'⟩ := (hmem _).1 he
      obtain rfl := hunique k' r' hlookup' hp'
      have hr : r' = r := Option.some.inj (hlookup'.symm.trans hlookup)
      rw [hr]
    have hnodup := t.nodupKeys.nodup.filter fun e => p e.1 e.2
    show (t.entries.filter fun e => p e.1 e.2).length = 1
    revert hin hall hnodup
    cases t.entries.filter fun e => p e.1 e.2 with
    | nil => exact fun hin => by cases hin
    | cons x l =>
      cases l with
      | nil => exact fun _ _ _ => rfl
      | cons y l =>
        intro _ hall hnodup
        have hxy : x = y := (hall x (by simp)).trans (hall y (by simp)).symm
        simp [hxy] at hnodup

/-- How an insertion under a new key changes a count. -/
theorem count_insert_new {t : Table κ ρ} {k : κ} (hk : t.lookup k = none) (r : ρ)
    (p : κ → ρ → Bool) :
    (count (t.insert k r) p : ℤ) = t.count p + if p k r then 1 else 0 := by
  rw [count_eq_sum, count_eq_sum, sum_insert_new hk]
  ring

/-- How a change of one row changes a count. -/
theorem Replaced.count {k : κ} {r r' : ρ} {t t' : Table κ ρ} (h : Replaced k r r' t t')
    (p : ρ → Bool) : (t'.count (fun _ => p) : ℤ) =
      t.count (fun _ => p) - (if p r then 1 else 0) + if p r' then 1 else 0 := by
  rw [count_eq_sum, count_eq_sum]
  exact h.total fun r => if p r then 1 else 0

theorem Updated.count_eq {k : κ} {f : ρ → ρ} {t t' : Table κ ρ} (h : Updated k f t t')
    {p : ρ → Bool} (hf : ∀ r, p (f r) = p r) : t'.count (fun _ => p) = t.count fun _ => p := by
  have ⟨r, hr, _⟩ := h
  have hcount := (h.replaced hr).count p
  rw [hf r] at hcount
  omega

theorem UpdatedMany.count_eq {k : κ} {f : ρ → ρ} {t t' : Table κ ρ} (h : UpdatedMany k f t t')
    {p : ρ → Bool} (hf : ∀ r, p (f r) = p r) : t'.count (fun _ => p) = t.count fun _ => p := by
  rcases h with h | ⟨-, rfl⟩
  · exact h.count_eq hf
  · rfl

omit [DecidableEq κ] in
/-- What a deletion takes from a count. -/
theorem count_deleteMany (t : Table κ ρ) (p q : κ → ρ → Bool) :
    ((t.deleteMany p).count q : ℤ) = t.count q - t.count fun k r => p k r && q k r := by
  rw [count_eq_sum, count_eq_sum, count_eq_sum, sum_deleteMany, ← sum_sub]
  unfold sum
  congr 1
  apply List.map_congr_left
  intro e _
  dsimp only
  cases p e.1 e.2 <;> cases q e.1 e.2 <;> simp

omit [DecidableEq κ] in
theorem deleteMany_of_false {t : Table κ ρ} {p : κ → ρ → Bool} (h : ∀ k r, p k r = false) :
    t.deleteMany p = t := by
  apply AList.ext
  exact List.filter_eq_self.2 fun e _ => by simp [h]

omit [DecidableEq κ] in
theorem sum_nonneg {t : Table κ ρ} {f : κ → ρ → ℤ} (hf : ∀ e ∈ t.entries, 0 ≤ f e.1 e.2) :
    0 ≤ sum t f := by
  refine List.sum_nonneg fun x hx => ?_
  obtain ⟨e, he, rfl⟩ := List.mem_map.1 hx
  exact hf e he

/-- A sum of what is not negative is zero only if it is zero on every row. -/
theorem sum_eq_zero_iff {t : Table κ ρ} {f : κ → ρ → ℤ}
    (hf : ∀ k r, t.lookup k = some r → 0 ≤ f k r) :
    sum t f = 0 ↔ ∀ k r, t.lookup k = some r → f k r = 0 := by
  constructor
  · intro hzero k r hk
    have hrest : 0 ≤ sum (t.erase k) f := by
      refine sum_nonneg fun e he => hf e.1 e.2 ?_
      have hsub : e ∈ t.entries := (List.kerase_sublist k t.entries).subset he
      exact List.mem_dlookup t.nodupKeys hsub
    have hk0 := hf k r hk
    rw [sum_erase hk] at hrest
    omega
  · intro hall
    rw [sum_congr hall]
    simp [sum]

/-- The first row with a property. -/
def findRow (t : Table κ ρ) (p : ρ → Bool) : Option (κ × ρ) :=
  (t.entries.find? fun e => p e.2).map fun e => (e.1, e.2)

theorem findRow_some {t : Table κ ρ} {p : ρ → Bool} {k : κ} {r : ρ}
    (h : findRow t p = some (k, r)) : t.lookup k = some r ∧ p r = true := by
  obtain ⟨e, he, heq⟩ := Option.map_eq_some_iff.1 h
  obtain ⟨rfl, rfl⟩ := Prod.mk.inj heq
  have hp := List.find?_some he
  exact ⟨List.mem_dlookup t.nodupKeys (List.mem_of_find?_eq_some he), hp⟩

theorem findRow_none {t : Table κ ρ} {p : ρ → Bool} (h : findRow t p = none) {k : κ} {r : ρ}
    (hk : t.lookup k = some r) : p r = false := by
  have hnone := List.find?_eq_none.1 (Option.map_eq_none_iff.1 h) ⟨k, r⟩
    (List.of_mem_dlookup hk)
  simpa using hnone

/-- Searches for properties that no row tells apart. -/
theorem findRow_congr {t : Table κ ρ} {p q : ρ → Bool}
    (h : ∀ k r, t.lookup k = some r → p r = q r) : findRow t p = findRow t q := by
  have hfind : t.entries.find? (fun e => p e.2) = t.entries.find? fun e => q e.2 :=
    List.find?_congr fun e he => h e.1 e.2 (List.mem_dlookup t.nodupKeys he)
  rw [findRow, findRow, hfind]

/-- A row with the property is found if it comes first. -/
theorem findRow_front {t : Table κ ρ} {p : ρ → Bool} {k : κ} {r : ρ} (hp : p r = true) :
    findRow (t.insert k r) p = some (k, r) := by
  have hfirst : (⟨k, r⟩ :: List.kerase k t.entries).find? (fun e => p e.2) = some ⟨k, r⟩ :=
    List.find?_cons_of_pos hp
  rw [findRow, AList.entries_insert, hfirst]
  rfl

/-- The only row with the property is found. -/
theorem findRow_unique {t : Table κ ρ} {p : ρ → Bool} {k : κ} {r : ρ} (hk : t.lookup k = some r)
    (hp : p r = true) (honly : ∀ k' r', t.lookup k' = some r' → p r' = true → k' = k) :
    findRow t p = some (k, r) := by
  cases hfound : findRow t p with
  | none =>
    have hno := findRow_none hfound hk
    rw [hp] at hno
    cases hno
  | some found =>
    obtain ⟨k', r'⟩ := found
    obtain ⟨hk', hp'⟩ := findRow_some hfound
    obtain rfl := honly k' r' hk' hp'
    obtain rfl := Option.some.inj (hk'.symm.trans hk)
    rfl

/-- A new row without the property is not found. -/
theorem findRow_insert {t : Table κ ρ} {p : ρ → Bool} {k : κ} {r : ρ} (hnew : t.lookup k = none)
    (hp : p r = false) : findRow (t.insert k r) p = findRow t p := by
  have hk : k ∉ t := AList.lookup_eq_none.1 hnew
  rw [findRow, findRow, AList.entries_insert_of_notMem hk, List.find?_cons_of_neg (by simp [hp])]

omit [DecidableEq κ] in
/-- A choice among the elements of a list, each of which can take the place of the one chosen so far. -/
theorem foldl_pick {α β : Type} {f : Option β → α → Option β} {g : α → β}
    (hf : ∀ best e, (f best e = best ∧ best.isSome) ∨ f best e = some (g e)) (l : List α) :
    (∃ e ∈ l, l.foldl f none = some (g e)) ∨ (l = [] ∧ l.foldl f none = none) := by
  have hkept : ∀ (l : List α) (b : β), l.foldl f (some b) = some b ∨
      ∃ e ∈ l, l.foldl f (some b) = some (g e) := by
    intro l
    induction l with
    | nil => exact fun b => .inl rfl
    | cons e l ih =>
      intro b
      rw [List.foldl_cons]
      rcases hf (some b) e with ⟨hsame, -⟩ | hnew
      · rw [hsame]
        rcases ih b with hb | ⟨e', he', hb⟩
        · exact .inl hb
        · exact .inr ⟨e', List.mem_cons_of_mem _ he', hb⟩
      · rw [hnew]
        rcases ih (g e) with hb | ⟨e', he', hb⟩
        · exact .inr ⟨e, List.mem_cons_self, hb⟩
        · exact .inr ⟨e', List.mem_cons_of_mem _ he', hb⟩
  cases l with
  | nil => exact .inr ⟨rfl, rfl⟩
  | cons e l =>
    rw [List.foldl_cons]
    rcases hf none e with ⟨-, hnone⟩ | hnew
    · cases hnone
    · rw [hnew]
      rcases hkept l (g e) with hb | ⟨e', he', hb⟩
      · exact .inl ⟨e, List.mem_cons_self, hb⟩
      · exact .inl ⟨e', List.mem_cons_of_mem _ he', hb⟩

/-- The newest of the rows with a property: the first of those with the latest time. -/
def latest (t : Table κ ρ) (p : ρ → Bool) (time : ρ → ℤ) : Option (κ × ρ) :=
  (t.entries.filter fun e => p e.2).foldl (fun best e => match best with
    | some b => if time b.2 < time e.2 then some (e.1, e.2) else some b
    | none => some (e.1, e.2)) none

/-- What is found is a row with the property, if there is one. -/
theorem latest_cases (t : Table κ ρ) (p : ρ → Bool) (time : ρ → ℤ) :
    (∃ k r, t.latest p time = some (k, r) ∧ t.lookup k = some r ∧ p r = true) ∨
      (t.latest p time = none ∧ ∀ k r, t.lookup k = some r → p r = false) := by
  have hpick : (∃ e ∈ t.entries.filter fun e => p e.2, t.latest p time = some (e.1, e.2)) ∨
      ((t.entries.filter fun e => p e.2) = [] ∧ t.latest p time = none) := by
    refine foldl_pick (fun best e => ?_) _
    cases best with
    | none => exact .inr rfl
    | some b =>
      dsimp only
      split
      · exact .inr rfl
      · exact .inl ⟨rfl, rfl⟩
  rcases hpick with ⟨e, he, heq⟩ | ⟨hempty, heq⟩
  · obtain ⟨hmem, hp⟩ := List.mem_filter.1 he
    exact .inl ⟨e.1, e.2, heq, mem_entries_iff.1 hmem, hp⟩
  · refine .inr ⟨heq, fun k r hk => ?_⟩
    simpa using (List.filter_eq_nil_iff.1 hempty) _ (mem_entries_iff.2 hk)

omit [DecidableEq κ] in
/-- A choice of the latest that goes on from `b` is the one among the others, if that is later. -/
theorem foldl_latest {α β : Type} {f : Option β → α → Option β} {g : α → β} {t : β → ℤ}
    (hsome : ∀ b e, f (some b) e = if t b < t (g e) then some (g e) else some b)
    (hnone : ∀ e, f none e = some (g e)) (l : List α) (b : β) : l.foldl f (some b) =
      match l.foldl f none with
      | some c => if t b < t c then some c else some b
      | none => some b := by
  induction l generalizing b with
  | nil => rfl
  | cons e l ih =>
    rw [List.foldl_cons, List.foldl_cons, hsome, hnone, ih (g e)]
    by_cases hlt : t b < t (g e)
    · rw [if_pos hlt, ih]
      cases l.foldl f none with
      | none => exact (if_pos hlt).symm
      | some c =>
        dsimp only
        by_cases hc : t (g e) < t c
        · rw [if_pos hc]
          exact (if_pos (hlt.trans hc)).symm
        · rw [if_neg hc]
          exact (if_pos hlt).symm
    · rw [if_neg hlt, ih]
      cases l.foldl f none with
      | none => exact (if_neg hlt).symm
      | some c =>
        dsimp only
        by_cases hc : t (g e) < t c
        · rw [if_pos hc]
        · rw [if_neg hc, if_neg (by omega)]
          exact (if_neg hlt).symm

/-- A new row is the newest, or leaves the newest row what it is. -/
theorem latest_insert {t : Table κ ρ} {k : κ} (hk : t.lookup k = none) (r : ρ) (p : ρ → Bool)
    (time : ρ → ℤ) : latest (t.insert k r) p time = if p r then
      (match t.latest p time with
      | some b => if time r < time b.2 then some b else some (k, r)
      | none => some (k, r))
    else t.latest p time := by
  have hnotin : k ∉ t := AList.lookup_eq_none.1 hk
  unfold latest
  rw [AList.entries_insert_of_notMem hnotin, List.filter_cons]
  split
  · rw [List.foldl_cons]
    dsimp only
    refine (foldl_latest (g := fun e : Sigma fun _ : κ => ρ => (e.1, e.2))
      (t := fun b : κ × ρ => time b.2) ?_ ?_ _ (k, r)).trans ?_
    · exact fun _ _ => rfl
    · exact fun _ => rfl
    · split <;> rename_i heq <;> rw [heq]
  · rfl

/-- A search by a value that no two rows have finds the same row after a change of another value. -/
theorem findRow_replaced {β : Type*} [DecidableEq β] {t : Table κ ρ} {f : ρ → β} (h : t.Distinct f)
    {k : κ} {r r' : ρ} (hk : t.lookup k = some r) (hf : f r' = f r) (v : β) :
    findRow (t.insert k r') (fun x => f x = v) =
      (findRow t fun x => f x = v).map fun e => if e.1 = k then (k, r') else e := by
  have hd : Distinct (AList.insert k r' t) f := h.insert fun k' x hk' hx hxr =>
    hk' (h k' k x r hx hk (hxr.trans hf))
  cases hfound : findRow t fun x => f x = v with
  | none =>
    have hnone : ∀ e ∈ (AList.insert k r' t).entries, ¬ (decide (f e.2 = v)) = true := by
      intro e he hv
      have hlookup := mem_entries_iff.1 he
      rw [lookup_insert_ite] at hlookup
      split at hlookup
      · have hr : e.2 = r' := (Option.some.inj hlookup).symm
        have hno := findRow_none hfound hk
        rw [hr, hf, hno] at hv
        cases hv
      · have hno := findRow_none hfound hlookup
        rw [hno] at hv
        cases hv
    rw [findRow, List.find?_eq_none.2 hnone]
    rfl
  | some e =>
    obtain ⟨a, x⟩ := e
    obtain ⟨ha, hx⟩ := findRow_some hfound
    have hvx : f x = v := of_decide_eq_true hx
    rw [Option.map_some]
    by_cases hak : a = k
    · subst hak
      obtain rfl := Option.some.inj (hk.symm.trans ha)
      rw [if_pos rfl]
      exact findRow_unique (AList.lookup_insert _) (decide_eq_true (hf.trans hvx))
        fun k' y hk' hy => hd k' a y r' hk' (AList.lookup_insert _)
          ((of_decide_eq_true hy).trans (hf.trans hvx).symm)
    · have ha' : (AList.insert k r' t).lookup a = some x := by
        rw [lookup_insert_ite, if_neg hak, ha]
      rw [if_neg hak]
      exact findRow_unique ha' hx fun k' y hk' hy =>
        hd k' a y x hk' ha' ((of_decide_eq_true hy).trans hvx.symm)

/-! ## Columns -/

/-- What a column, given by what it holds in each row, holds at all. -/
def values {β : Type*} (t : Table κ ρ) (f : κ → ρ → Option β) : List β :=
  t.entries.filterMap fun e => f e.1 e.2

theorem mem_values {β : Type*} {t : Table κ ρ} {f : κ → ρ → Option β} {b : β} :
    b ∈ t.values f ↔ ∃ k r, t.lookup k = some r ∧ f k r = some b := by
  unfold values
  rw [List.mem_filterMap]
  constructor
  · rintro ⟨e, he, hb⟩
    exact ⟨e.1, e.2, mem_entries_iff.1 he, hb⟩
  · rintro ⟨k, r, hk, hb⟩
    exact ⟨⟨k, r⟩, mem_entries_iff.2 hk, hb⟩

theorem values_deleteMany {β : Type*} {t : Table κ ρ} {p : κ → ρ → Bool} {f : κ → ρ → Option β}
    {b : β} : b ∈ (t.deleteMany p).values f ↔
      ∃ k r, t.lookup k = some r ∧ p k r = false ∧ f k r = some b := by
  simp only [mem_values, lookup_deleteMany, and_assoc]

end Table

end BankDemo
