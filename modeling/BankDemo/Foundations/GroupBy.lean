import Mathlib.Algebra.BigOperators.Group.List.Basic
import Mathlib.Data.List.Dedup

/-!
# Groups of a list

The entries of a list by a key (`groupBy`): the groups have different keys, each entry is in the group
of its key and in no other (`filter_groupBy`), and the totals of the groups add up to the total of
the list (`sum_groupBy`).
-/

namespace BankDemo.GroupBy

variable {α β M : Type*} [DecidableEq β]

/-- The keys of the entries, each once, and the entries with each. -/
def groupBy (key : α → β) (l : List α) : List (β × List α) :=
  (l.map key).dedup.map fun k => (k, l.filter fun a => key a = k)

variable {key : α → β}

theorem mem_groupBy {l : List α} {g : β × List α} : g ∈ groupBy key l ↔
    (∃ a ∈ l, key a = g.1) ∧ g.2 = l.filter fun a => key a = g.1 := by
  simp only [groupBy, List.mem_map, List.mem_dedup]
  constructor
  · rintro ⟨k, hk, rfl⟩
    exact ⟨hk, rfl⟩
  · rintro ⟨hk, hg⟩
    exact ⟨g.1, hk, Prod.ext rfl hg.symm⟩

theorem map_fst_groupBy (l : List α) : (groupBy key l).map Prod.fst = (l.map key).dedup := by
  rw [groupBy, List.map_map]
  exact List.map_id _

theorem nodup_groupBy (key : α → β) (l : List α) : ((groupBy key l).map Prod.fst).Nodup := by
  rw [map_fst_groupBy]
  exact List.nodup_dedup _

/-- What one entry adds to the groups of different keys. -/
theorem sum_ite_key [AddCommMonoid M] {ks : List β} (hnodup : ks.Nodup) {k : β} (hk : k ∈ ks)
    (m : M) : (ks.map fun k' => if k = k' then m else 0).sum = m := by
  induction ks with
  | nil => cases hk
  | cons k' ks ih =>
    obtain ⟨hnew, hrest⟩ := List.nodup_cons.1 hnodup
    rw [List.map_cons, List.sum_cons]
    rcases List.mem_cons.1 hk with rfl | hk
    · have hothers : (ks.map fun k' => if k = k' then m else 0).sum = 0 := by
        refine List.sum_eq_zero fun x hx => ?_
        obtain ⟨k', hk', rfl⟩ := List.mem_map.1 hx
        exact if_neg (ne_of_mem_of_not_mem hk' hnew).symm
      rw [if_pos rfl, hothers, add_zero]
    · rw [if_neg (ne_of_mem_of_not_mem hk hnew), zero_add, ih hrest hk]

/-- **The groups add up.** -/
theorem sum_filter_keys [AddCommMonoid M] {ks : List β} (hnodup : ks.Nodup) {l : List α}
    (hkeys : ∀ a ∈ l, key a ∈ ks) (f : α → M) :
    (ks.map fun k => ((l.filter fun a => key a = k).map f).sum).sum = (l.map f).sum := by
  induction l with
  | nil => simp
  | cons a l ih =>
    obtain ⟨ha, hl⟩ := List.forall_mem_cons.1 hkeys
    have hsplit : ∀ k, (((a :: l).filter fun a => key a = k).map f).sum =
        (if key a = k then f a else 0) + ((l.filter fun a => key a = k).map f).sum := by
      intro k
      by_cases h : key a = k <;> simp [h]
    simp only [hsplit]
    rw [List.sum_map_add, sum_ite_key hnodup ha, ih hl, List.map_cons, List.sum_cons]

theorem sum_groupBy [AddCommMonoid M] (key : α → β) (l : List α) (f : α → M) :
    ((groupBy key l).map fun g => (g.2.map f).sum).sum = (l.map f).sum := by
  rw [groupBy, List.map_map]
  exact sum_filter_keys (List.nodup_dedup _)
    (fun a ha => List.mem_dedup.2 (List.mem_map_of_mem ha)) f

/-- The group of a key, if there is one. -/
theorem filter_groupBy (l : List α) (k : β) : ((groupBy key l).filter fun g => g.1 = k) =
    if k ∈ l.map key then [(k, l.filter fun a => key a = k)] else [] := by
  have hkeys : (l.map key).dedup.filter (fun k' => k' = k) = if k ∈ l.map key then [k] else [] := by
    rw [List.filter_eq]
    split
    · next hmem =>
      rw [List.count_eq_one_of_mem (List.nodup_dedup _) (List.mem_dedup.2 hmem)]
      rfl
    · next hmem =>
      rw [List.count_eq_zero_of_not_mem (mt List.mem_dedup.1 hmem)]
      rfl
  have hfilter : (fun g : β × List α => decide (g.1 = k)) ∘
      (fun k' => (k', l.filter fun a => key a = k')) = fun k' => decide (k' = k) := rfl
  rw [groupBy, List.filter_map, hfilter, hkeys]
  split <;> rfl

/-- The group of a key has the entries with it. -/
theorem sum_filter_groupBy [AddCommMonoid M] (key : α → β) (l : List α) (k : β) (f : α → M) :
    (((groupBy key l).filter fun g => g.1 = k).map fun g => (g.2.map f).sum).sum =
      ((l.filter fun a => key a = k).map f).sum := by
  rw [filter_groupBy]
  split
  · simp
  · next hmem =>
    have hnone : l.filter (fun a => key a = k) = [] := by
      refine List.filter_eq_nil_iff.2 fun a ha hkey => hmem ?_
      rw [← of_decide_eq_true hkey]
      exact List.mem_map_of_mem ha
    rw [hnone]
    rfl

end BankDemo.GroupBy
