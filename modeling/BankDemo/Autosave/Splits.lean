import Mathlib.Data.List.Sort
import BankDemo.Autosave.Service
import BankDemo.Foundations.JsNumber
import BankDemo.Foundations.Shares

/-!
# Percentages of goals

`normalizeSplits` scales the percentages of a configuration to a hundred. What the roundings leave goes
to the largest, as in `allocateCents`, but here the splits are sorted to find it. The quotient is a
parameter: `normalizeSplits` takes it exactly, and `normalizeSplitsDouble` as the program computes it.

* `normalizeSplitsBy_normalized`: the percentages of the goals are scaled to a hundred, if the quotient
  is rounded down, as both are (`normalizeSplits_normalized`, `normalizeSplitsDouble_normalized`).
* `allocateCents_allocated`: the shares of an amount add up to it, and all but one are rounded down.
-/

namespace BankDemo.Autosave

open Goals Shares

/-- `normalizeSplits`, for what `Math.floor((percent / total) * 100)` gives. -/
def normalizeSplitsBy (scale : ℤ → ℤ → ℤ) (splits : List GoalSplit) : List GoalSplit :=
  let filtered := splits.filter fun s => s.percent > 0
  let total := (filtered.map GoalSplit.percent).sum
  let scaled := filtered.map fun s => { s with percent := scale s.percent total }
  let drift := 100 - (scaled.map GoalSplit.percent).sum
  if filtered = [] then []
  else if total = 100 then filtered
  else if drift ≠ 0 then
    (scaled.insertionSort fun a b => b.percent - a.percent ≤ 0).modifyHead fun s =>
      { s with percent := s.percent + drift }
  else scaled

/-- `normalizeSplits`, with the quotient taken exactly. -/
def normalizeSplits (splits : List GoalSplit) : List GoalSplit :=
  normalizeSplitsBy (fun percent total => percent * 100 / total) splits

/-- `normalizeSplits`, with the quotient in doubles, as it is computed. -/
def normalizeSplitsDouble (splits : List GoalSplit) : List GoalSplit :=
  normalizeSplitsBy JsNumber.percent splits

/-- The percentages are scaled exactly to 29, 50 and 21. In doubles 58 of 200 are 28, which leaves one. -/
example : (normalizeSplits [⟨1, 58⟩, ⟨2, 100⟩, ⟨3, 42⟩]).map GoalSplit.percent = [29, 50, 21] ∧
    (normalizeSplitsDouble [⟨1, 58⟩, ⟨2, 100⟩, ⟨3, 42⟩]).map GoalSplit.percent = [51, 28, 21] := by
  decide +kernel

/-- The splits that count. -/
def positive (splits : List GoalSplit) : List GoalSplit := splits.filter fun s => s.percent > 0

/-- The percentages, scaled to a hundred and rounded down. -/
def scaled (scale : ℤ → ℤ → ℤ) (splits : List GoalSplit) : List GoalSplit :=
  splits.map fun s => { s with percent := scale s.percent (splits.map GoalSplit.percent).sum }

/-- What is left of a hundred. -/
def drift (scale : ℤ → ℤ → ℤ) (splits : List GoalSplit) : ℤ :=
  100 - ((scaled scale splits).map GoalSplit.percent).sum

theorem normalizeSplitsBy_eq (scale : ℤ → ℤ → ℤ) (splits : List GoalSplit) :
    normalizeSplitsBy scale splits =
      if positive splits = [] then []
      else if ((positive splits).map GoalSplit.percent).sum = 100 then positive splits
      else if drift scale (positive splits) ≠ 0 then
        ((scaled scale (positive splits)).insertionSort fun a b => b.percent - a.percent ≤ 0).modifyHead
          fun s => { s with percent := s.percent + drift scale (positive splits) }
      else scaled scale (positive splits) := rfl

theorem normalizeSplitsBy_nil {scale : ℤ → ℤ → ℤ} {splits : List GoalSplit}
    (h : positive splits = []) : normalizeSplitsBy scale splits = [] := by
  rw [normalizeSplitsBy_eq, if_pos h]

theorem positive_eq_nil {splits : List GoalSplit} (hpercent : ∀ s ∈ splits, 0 ≤ s.percent) :
    positive splits = [] ↔ ∀ s ∈ splits, s.percent = 0 := by
  simp only [positive, List.filter_eq_nil_iff, decide_eq_true_eq]
  refine forall₂_congr fun s hs => ?_
  have := hpercent s hs
  omega

theorem sum_positive {splits : List GoalSplit} (h : positive splits ≠ []) :
    0 < ((positive splits).map GoalSplit.percent).sum := by
  have hmem : ∀ s ∈ positive splits, 0 < s.percent := fun s hs => by
    simpa using (List.mem_filter.1 hs).2
  generalize positive splits = l at h hmem
  induction l with
  | nil => exact absurd rfl h
  | cons s l ih =>
    have hs := hmem s List.mem_cons_self
    simp only [List.map_cons, List.sum_cons]
    cases l with
    | nil => simpa using hs
    | cons s' l =>
      have := ih (by simp) fun x hx => hmem x (List.mem_cons_of_mem _ hx)
      omega

/-- What is left of the percentages or of the shares goes to the largest. -/
theorem sum_modifyHead {l : List GoalSplit} (h : l ≠ []) (d : ℤ) :
    ((l.modifyHead fun s => { s with percent := s.percent + d }).map GoalSplit.percent).sum =
      (l.map GoalSplit.percent).sum + d := by
  cases l with
  | nil => exact absurd rfl h
  | cons s l =>
    simp only [List.modifyHead_cons, List.map_cons, List.sum_cons]
    omega

theorem goals_modifyHead (l : List GoalSplit) (d : ℤ) :
    (l.modifyHead fun s => { s with percent := s.percent + d }).map GoalSplit.goalId =
      l.map GoalSplit.goalId := by
  cases l <;> rfl

/-- The percentages of the goals, after they are scaled. -/
structure Normalized (splits result : List GoalSplit) : Prop where
  goals : (result.map GoalSplit.goalId).Perm ((positive splits).map GoalSplit.goalId)
  nonneg : ∀ s ∈ result, 0 ≤ s.percent
  sum : (result.map GoalSplit.percent).sum = 100

/-- The scale rounds the percentages of these splits down. -/
def ScalesDown (scale : ℤ → ℤ → ℤ) (splits : List GoalSplit) : Prop :=
  ∀ s ∈ positive splits, 0 ≤ scale s.percent ((positive splits).map GoalSplit.percent).sum ∧
    scale s.percent ((positive splits).map GoalSplit.percent).sum ≤
      share 100 ((positive splits).map GoalSplit.percent).sum s.percent

section Scales

variable {scale : ℤ → ℤ → ℤ} {splits : List GoalSplit}

theorem scaled_nonneg (hscale : ScalesDown scale splits) :
    ∀ s ∈ scaled scale (positive splits), 0 ≤ s.percent := by
  intro s hs
  obtain ⟨s', hs', rfl⟩ := List.mem_map.1 hs
  exact (hscale s' hs').1

theorem scaled_goals (scale : ℤ → ℤ → ℤ) (splits : List GoalSplit) :
    (scaled scale splits).map GoalSplit.goalId = splits.map GoalSplit.goalId := by
  rw [scaled, List.map_map]
  rfl

/-- Rounding down leaves something of the hundred, if anything. -/
theorem drift_nonneg (h : positive splits ≠ []) (hscale : ScalesDown scale splits) :
    0 ≤ drift scale (positive splits) := by
  have hrest := (rest_range 100 (sum_positive h)).1
  have hle : ((scaled scale (positive splits)).map GoalSplit.percent).sum ≤
      (((positive splits).map GoalSplit.percent).map
        (share 100 ((positive splits).map GoalSplit.percent).sum)).sum := by
    rw [scaled, List.map_map, List.map_map]
    exact List.sum_le_sum fun s hs => (hscale s hs).2
  rw [rest] at hrest
  rw [drift]
  omega

/-- **The percentages of the goals are scaled to a hundred**. -/
theorem normalizeSplitsBy_normalized (h : positive splits ≠ []) (hscale : ScalesDown scale splits) :
    Normalized splits (normalizeSplitsBy scale splits) := by
  have hdrift := drift_nonneg h hscale
  have hgoals := scaled_goals scale (positive splits)
  have hsum : ((scaled scale (positive splits)).map GoalSplit.percent).sum =
      100 - drift scale (positive splits) := by
    rw [drift]
    omega
  have hnonneg := scaled_nonneg hscale
  rw [normalizeSplitsBy_eq, if_neg h]
  split
  · rename_i htotal
    refine ⟨.refl _, fun s hs => ?_, htotal⟩
    have hpercent : 0 < s.percent := by simpa using (List.mem_filter.1 hs).2
    exact hpercent.le
  split
  · have hperm := List.perm_insertionSort
      (fun a b : GoalSplit => b.percent - a.percent ≤ 0) (scaled scale (positive splits))
    obtain ⟨l, hl⟩ : ∃ l, (scaled scale (positive splits)).insertionSort
        (fun a b => b.percent - a.percent ≤ 0) = l := ⟨_, rfl⟩
    rw [hl] at hperm ⊢
    have hne : l ≠ [] := by
      intro hnil
      rw [hnil, scaled] at hperm
      exact h (List.map_eq_nil_iff.1 hperm.symm.eq_nil)
    refine ⟨?_, fun s hs => ?_, ?_⟩
    · rw [goals_modifyHead, ← hgoals]
      exact hperm.map _
    · cases l with
      | nil => cases hs
      | cons first l =>
        have hfirst := hnonneg first (hperm.mem_iff.1 List.mem_cons_self)
        rw [List.modifyHead_cons, List.mem_cons] at hs
        rcases hs with rfl | hs
        · exact Int.add_nonneg hfirst hdrift
        · exact hnonneg s (hperm.mem_iff.1 (List.mem_cons_of_mem _ hs))
    · rw [sum_modifyHead hne, (hperm.map GoalSplit.percent).sum_eq, hsum]
      omega
  · rename_i hzero
    refine ⟨hgoals ▸ .refl _, hnonneg, ?_⟩
    omega

/-- The exact quotient is rounded down. -/
theorem normalizeSplits_normalized (h : positive splits ≠ []) :
    Normalized splits (normalizeSplits splits) := by
  refine normalizeSplitsBy_normalized h fun s hs => ?_
  have hpercent : 0 < s.percent := by simpa using (List.mem_filter.1 hs).2
  rw [show s.percent * 100 / ((positive splits).map GoalSplit.percent).sum =
    share 100 ((positive splits).map GoalSplit.percent).sum s.percent by rw [share, Int.mul_comm]]
  exact ⟨share_nonneg (by omega) (sum_positive h).le hpercent.le, le_rfl⟩

/-- No percentage is more than the sum. -/
theorem percent_le_sum (hnonneg : ∀ s ∈ splits, 0 ≤ s.percent) :
    ∀ s ∈ splits, s.percent ≤ (splits.map GoalSplit.percent).sum := fun s hs =>
  List.single_le_sum (fun x hx => by
    obtain ⟨s', hs', rfl⟩ := List.mem_map.1 hx
    exact hnonneg s' hs') _ (List.mem_map_of_mem hs)

/-- So is the one in doubles, unless the percentages add up to more than a double can tell apart. -/
theorem normalizeSplitsDouble_normalized (h : positive splits ≠ [])
    (hsmall : ((positive splits).map GoalSplit.percent).sum ≤ 2 ^ 40) :
    Normalized splits (normalizeSplitsDouble splits) := by
  have hpercent : ∀ s ∈ positive splits, 0 ≤ s.percent := fun s hs => by
    have hs : 0 < s.percent := by simpa using (List.mem_filter.1 hs).2
    exact hs.le
  refine normalizeSplitsBy_normalized h fun s hs => ⟨?_, ?_⟩
  · exact JsNumber.percent_nonneg (hpercent s hs) (sum_positive h).le
  · rw [share, Int.mul_comm]
    exact JsNumber.percent_le (hpercent s hs) (percent_le_sum hpercent s hs) (sum_positive h) hsmall

end Scales

/-! ## Shares of an amount -/

/-- No percentage is larger than the one at the place that is found. -/
theorem percentAt_le_largest (splits : List GoalSplit) {i : ℕ} (hi : i < splits.length) :
    percentAt splits i ≤ percentAt splits (largestIdx splits) := by
  -- what the loop holds is at least what it began with and what it has seen
  have hfold : ∀ (l : List ℕ) (n : ℕ), ∀ m, m = l.foldl (fun largest i =>
      if percentAt splits i > percentAt splits largest then i else largest) n →
        percentAt splits n ≤ percentAt splits m ∧ ∀ i ∈ l, percentAt splits i ≤ percentAt splits m := by
    intro l
    induction l with
    | nil =>
      rintro n m rfl
      exact ⟨le_rfl, by simp⟩
    | cons j l ih =>
      intro n m hm
      rw [List.foldl_cons] at hm
      obtain ⟨hbegin, hseen⟩ := ih _ m hm
      rw [List.forall_mem_cons]
      split at hbegin
      · exact ⟨by omega, hbegin, hseen⟩
      · exact ⟨hbegin, by omega, hseen⟩
  obtain ⟨hzero, hrest⟩ := hfold (List.range' 1 (splits.length - 1)) 0 _ rfl
  rcases Nat.eq_zero_or_pos i with rfl | hpos
  · exact hzero
  · exact hrest i (List.mem_range'_1.2 (by omega))

theorem percentAt_eq {splits : List GoalSplit} {i : ℕ} {s : GoalSplit} (h : splits[i]? = some s) :
    percentAt splits i = s.percent := by
  rw [percentAt, h]
  rfl

/-- The shares of an amount: each is rounded down, but for one of the largest percentage, which gets
the excess. -/
structure Allocated (amountCents : ℤ) (splits : List GoalSplit) (shares : List Allocation) :
    Prop where
  length : shares.length = splits.length
  nonneg : ∀ a ∈ shares, 0 ≤ a.cents
  sum : shareSum shares = amountCents
  rounded : ∃ largest ∈ splits, ∃ i : ℕ, splits[i]? = some largest ∧
    (∀ s ∈ splits, s.percent ≤ largest.percent) ∧ ∃ excess : ℤ, 0 ≤ excess ∧
      excess < splits.length ∧ ∀ (j : ℕ) (s : GoalSplit), splits[j]? = some s →
        shares[j]? = some (Allocation.mk s.goalId
          (amountCents * s.percent / 100 + if j = i then excess else 0))

theorem roundedShares_get {amountCents : ℤ} (hamount : 0 ≤ amountCents) {splits : List GoalSplit}
    (hnonneg : ∀ s ∈ splits, 0 ≤ s.percent) {j : ℕ} {s : GoalSplit} (h : splits[j]? = some s) :
    (roundedShares amountCents splits)[j]? =
      some (Allocation.mk s.goalId (amountCents * s.percent / 100)) := by
  rw [roundedShares, List.getElem?_map, h, Option.map_some, Int.tdiv_eq_ediv_of_nonneg
    (Int.mul_nonneg hamount (hnonneg s (List.mem_of_getElem? h)))]

theorem shareSum_rounded {amountCents : ℤ} (hamount : 0 ≤ amountCents) {splits : List GoalSplit}
    (hnonneg : ∀ s ∈ splits, 0 ≤ s.percent) (hsum : (splits.map GoalSplit.percent).sum = 100) :
    shareSum (roundedShares amountCents splits) =
      amountCents - rest amountCents (splits.map GoalSplit.percent) := by
  have hmap : (roundedShares amountCents splits).map Allocation.cents =
      (splits.map GoalSplit.percent).map (share amountCents 100) := by
    rw [roundedShares, List.map_map, List.map_map]
    refine List.map_congr_left fun s hs => ?_
    exact Int.tdiv_eq_ediv_of_nonneg (Int.mul_nonneg hamount (hnonneg s hs))
  rw [shareSum, hmap, rest, hsum]
  omega

/-- **No cent is lost**. -/
theorem allocateCents_allocated {amountCents : ℤ} (hamount : 0 ≤ amountCents)
    {splits : List GoalSplit} (hnonneg : ∀ s ∈ splits, 0 ≤ s.percent)
    (hsum : (splits.map GoalSplit.percent).sum = 100) :
    Allocated amountCents splits (allocateCents amountCents splits) := by
  have hne : splits ≠ [] := by
    rintro rfl
    cases hsum
  have hrest := rest_range amountCents (show 0 < (splits.map GoalSplit.percent).sum by omega)
  have hshares := shareSum_rounded hamount hnonneg hsum
  rw [List.length_map] at hrest
  -- the share at every place, whether or not there is anything left
  have hget : ∀ (j : ℕ) (s : GoalSplit), splits[j]? = some s → (allocateCents amountCents splits)[j]? =
      some (Allocation.mk s.goalId (amountCents * s.percent / 100 + if j = largestIdx splits then
        rest amountCents (splits.map GoalSplit.percent) else 0)) := by
    intro j s hs
    have hrounded := roundedShares_get hamount hnonneg hs
    simp only [allocateCents, if_neg hne]
    rw [show amountCents - shareSum (roundedShares amountCents splits) =
      rest amountCents (splits.map GoalSplit.percent) by omega]
    split
    · rename_i hzero
      rw [hrounded, hzero]
      simp
    · rw [List.getElem?_modify, hrounded]
      by_cases hj : largestIdx splits = j
      · simp [hj]
      · simp [hj, Ne.symm hj]
  have hlength : (allocateCents amountCents splits).length = splits.length := by
    simp only [allocateCents, if_neg hne]
    split <;> simp [roundedShares]
  obtain ⟨largest, hlargest⟩ : ∃ s, splits[largestIdx splits]? = some s :=
    ⟨_, List.getElem?_eq_getElem (largestIdx_lt hne)⟩
  refine ⟨hlength, fun a ha => ?_, allocateCents_sum amountCents hne, largest,
    List.mem_of_getElem? hlargest, _, hlargest, fun s hs => ?_, _, hrest.1, hrest.2, hget⟩
  · obtain ⟨j, hj⟩ := List.mem_iff_getElem?.1 ha
    obtain ⟨hlt, -⟩ := List.getElem?_eq_some_iff.1 hj
    have hs := List.getElem?_eq_getElem (hlength ▸ hlt)
    rw [hget j _ hs] at hj
    cases hj
    have hshare := share_nonneg hamount (show (0 : ℤ) ≤ 100 by omega)
      (hnonneg _ (List.mem_of_getElem? hs))
    simp only [share] at hshare ⊢
    split <;> omega
  · obtain ⟨j, hj⟩ := List.mem_iff_getElem?.1 hs
    obtain ⟨hlt, -⟩ := List.getElem?_eq_some_iff.1 hj
    have hle := percentAt_le_largest splits hlt
    rwa [percentAt_eq hj, percentAt_eq hlargest] at hle

end BankDemo.Autosave
