import BankDemo.Insights.Service
import Mathlib.Data.List.Perm.Basic

/-!
# Charts add up

The months of a chart are different and in order, and together they show every transaction that
counts in the time they cover, once; what the chart of a month says was spent on each category is
what the bar of that month says went out (`charts_add_up`).
-/

namespace BankDemo.Insights

open JsDate GroupBy

/-! ## Months -/

theorem monthStart_lt {k k' : ℤ} (h : k < k') : monthStart k < monthStart k' := by
  have hday := monthDay_lt h (show (1 : ℤ) ≤ monthDays k by have := monthDays_range k; omega) le_rfl
  show monthDay k 1 * 86400000 < monthDay k' 1 * 86400000
  omega

theorem monthStart_inj {k k' : ℤ} : monthStart k = monthStart k' ↔ k = k' := by
  constructor
  · intro h
    rcases lt_trichotomy k k' with hlt | heq | hgt
    · exact absurd h (monthStart_lt hlt).ne
    · exact heq
    · exact absurd h (monthStart_lt hgt).ne'
  · rintro rfl
    rfl

/-- An instant is not before its month begins, and before the next one does. -/
theorem monthStart_le_iff (k : ℤ) (t : Instant) : monthStart k ≤ t ↔ k ≤ monthIndex t := by
  have htoday := monthDay_today t
  have hdate := (civil_range (dayNumber t)).2.2.1
  have hms := msInDay_range t
  have hday : monthStart k ≤ t ↔ monthDay k 1 ≤ dayNumber t := by
    simp only [msInDay, msPerDay] at hms
    show monthDay k 1 * 86400000 ≤ t ↔ _
    omega
  rw [hday, ← htoday]
  constructor
  · intro h
    by_contra hlt
    have hbefore := monthDay_lt (not_le.1 hlt) (getUTCDate_le t) (le_refl (1 : ℤ))
    omega
  · intro h
    rcases h.lt_or_eq with hlt | rfl
    · exact (monthDay_lt hlt (show (1 : ℤ) ≤ monthDays k by have := monthDays_range k; omega)
        hdate).le
    · have hadd := monthDay_add (monthIndex t) 1 (getUTCDate t - 1)
      rw [show 1 + (getUTCDate t - 1) = getUTCDate t by omega] at hadd
      have hfirst : (1 : ℤ) ≤ getUTCDate t := hdate
      omega

/-! ## Adding up -/

theorem amountIn_sub_amountOut (t : Transaction) : amountIn t - amountOut t = t.amountCents := by
  unfold amountIn amountOut
  split <;> split <;> omega

theorem sum_amounts (ts : List Transaction) : (ts.map amountIn).sum - (ts.map amountOut).sum =
    (ts.map Transaction.amountCents).sum := by
  induction ts with
  | nil => rfl
  | cons t ts ih =>
    have ht := amountIn_sub_amountOut t
    simp only [List.map_cons, List.sum_cons]
    omega

/-- The transactions that a chart of months covers. -/
def covered (db : Db) (accountIds : List Uuid) (now : Instant) (months : ℕ) : List Transaction :=
  (counted db accountIds).filter (inWindow now months)

variable (db : Db) (accountIds : List Uuid) (now : Instant) (months : ℕ)

theorem monthlyRows_perm : (monthlyRows db accountIds now months).Perm
    ((groupBy (fun t => monthIndex t.occurredAt) (covered db accountIds now months)).map
      monthlyRow) :=
  List.perm_insertionSort _ _

theorem categoryRows_perm (start : Instant) : (categoryRows db accountIds start).Perm
    ((groupBy Transaction.category ((counted db accountIds).filter (inMonth start))).map
      (categoryRow start)) :=
  List.perm_insertionSort _ _

theorem sum_monthlyRows {M : Type} [AddCommMonoid M] (f : MonthlyRow → M) (g : Transaction → M)
    (h : ∀ k ts, f (monthlyRow (k, ts)) = (ts.map g).sum) :
    ((monthlyRows db accountIds now months).map f).sum =
      ((covered db accountIds now months).map g).sum := by
  have hsum := sum_groupBy (fun t : Transaction => monthIndex t.occurredAt)
    (covered db accountIds now months) g
  rw [((monthlyRows_perm db accountIds now months).map f).sum_eq, List.map_map, ← hsum]
  congr 1
  exact List.map_congr_left fun e _ => h e.1 e.2

theorem sum_categoryRows {M : Type} [AddCommMonoid M] (start : Instant) (f : CategoryRow → M)
    (g : Transaction → M) (h : ∀ c ts, f (categoryRow start (c, ts)) = (ts.map g).sum) :
    ((categoryRows db accountIds start).map f).sum =
      (((counted db accountIds).filter (inMonth start)).map g).sum := by
  have hsum := sum_groupBy Transaction.category
    ((counted db accountIds).filter (inMonth start)) g
  rw [((categoryRows_perm db accountIds start).map f).sum_eq, List.map_map, ← hsum]
  congr 1
  exact List.map_congr_left fun e _ => h e.1 e.2

/-- What counts in a month, in a chart that covers it. -/
theorem covered_filter {start : Instant} (hwindow : monthIndex now - months ≤ monthIndex start) :
    ((covered db accountIds now months).filter fun t =>
        monthIndex t.occurredAt = monthIndex start) =
      (counted db accountIds).filter (inMonth start) := by
  rw [covered, List.filter_filter]
  apply List.filter_congr
  intro t _
  simp only [inMonth, inWindow, monthStart_inj]
  by_cases hmonth : monthIndex t.occurredAt = monthIndex start
  · have hin : monthStart (monthIndex now - months) ≤ t.occurredAt := by
      rw [monthStart_le_iff, hmonth]
      exact hwindow
    simp [hmonth, hin]
  · simp [hmonth]

/-- The bar of a month, with what it says. -/
theorem sum_bar {M : Type} [AddCommMonoid M] {start : Instant}
    (hwindow : monthIndex now - months ≤ monthIndex start) (f : MonthlyRow → M)
    (g : Transaction → M) (h : ∀ k ts, f (monthlyRow (k, ts)) = (ts.map g).sum) :
    (((monthlyRows db accountIds now months).filter fun r =>
        r.monthStart = monthStart (monthIndex start)).map f).sum =
      (((counted db accountIds).filter (inMonth start)).map g).sum := by
  have hsum := sum_filter_groupBy (fun t : Transaction => monthIndex t.occurredAt)
    (covered db accountIds now months) (monthIndex start) g
  rw [covered_filter db accountIds now months hwindow] at hsum
  have hrows : (fun r : MonthlyRow => decide (r.monthStart = monthStart (monthIndex start))) ∘
      monthlyRow = fun e => decide (e.1 = monthIndex start) := by
    funext e
    simp only [Function.comp_apply, monthlyRow, monthStart_inj]
  rw [(((monthlyRows_perm db accountIds now months).filter _).map f).sum_eq, List.filter_map, hrows,
    List.map_map, ← hsum]
  congr 1
  exact List.map_congr_left fun e _ => h e.1 e.2

/-- A bar for each month, the newest first. -/
theorem monthlyRows_pairwise :
    (monthlyRows db accountIds now months).Pairwise fun a b => b.monthStart < a.monthStart := by
  have hsorted : (monthlyRows db accountIds now months).Pairwise
      fun a b => b.monthStart ≤ a.monthStart := by
    have htotal : Std.Total fun a b : MonthlyRow => b.monthStart ≤ a.monthStart :=
      ⟨fun a b => le_total b.monthStart a.monthStart⟩
    have htrans : IsTrans MonthlyRow fun a b => b.monthStart ≤ a.monthStart :=
      ⟨fun a b c hab hbc => hbc.trans hab⟩
    exact List.pairwise_insertionSort _ _
  have hdifferent : ((monthlyRows db accountIds now months).map MonthlyRow.monthStart).Nodup := by
    rw [((monthlyRows_perm db accountIds now months).map _).nodup_iff, List.map_map]
    have hnodup := nodup_groupBy (fun t : Transaction => monthIndex t.occurredAt)
      (covered db accountIds now months)
    have hmonths := hnodup.map (f := monthStart) fun k k' => monthStart_inj.1
    rwa [List.map_map] at hmonths
  rw [List.Nodup, List.pairwise_map] at hdifferent
  refine hsorted.imp₂ (fun a b hle hne => lt_of_le_of_ne hle (Ne.symm hne)) hdifferent

/-- The charts of the accounts add up. -/
structure ChartsAddUp (db : Db) (accountIds : List Uuid) (now : Instant) (months : ℕ) : Prop where
  newestFirst : (monthlyRows db accountIds now months).Pairwise
    fun a b => b.monthStart < a.monthStart
  /-- Every transaction that counts is in one bar. -/
  movement : ((monthlyRows db accountIds now months).map fun r =>
      r.totalInCents - r.totalOutCents).sum =
    ((covered db accountIds now months).map Transaction.amountCents).sum
  count : ((monthlyRows db accountIds now months).map MonthlyRow.txCount).sum =
    (covered db accountIds now months).length
  /-- No bar is empty. -/
  nonempty : ∀ r ∈ monthlyRows db accountIds now months, 0 < r.txCount
  /-- A category has one part of a month. -/
  categories : ∀ start, ((categoryRows db accountIds start).map CategoryRow.category).Nodup
  /-- The parts of a month are what its bar says went out. -/
  spent : ∀ start, monthIndex now - months ≤ monthIndex start →
    ((categoryRows db accountIds start).map CategoryRow.totalSpentCents).sum =
      (((monthlyRows db accountIds now months).filter fun r =>
        r.monthStart = monthStart (monthIndex start)).map MonthlyRow.totalOutCents).sum
  parts : ∀ start, monthIndex now - months ≤ monthIndex start →
    ((categoryRows db accountIds start).map CategoryRow.txCount).sum =
      (((monthlyRows db accountIds now months).filter fun r =>
        r.monthStart = monthStart (monthIndex start)).map MonthlyRow.txCount).sum

/-- **Charts add up.** -/
theorem charts_add_up : ChartsAddUp db accountIds now months where
  newestFirst := monthlyRows_pairwise db accountIds now months
  movement := by
    apply sum_monthlyRows
    intro k ts
    exact sum_amounts ts
  count := by
    rw [sum_monthlyRows db accountIds now months MonthlyRow.txCount fun _ => 1] <;>
      simp [monthlyRow]
  nonempty := by
    intro r hr
    obtain ⟨g, hg, rfl⟩ := List.mem_map.1 ((monthlyRows_perm db accountIds now months).mem_iff.1 hr)
    obtain ⟨⟨t, ht, hkey⟩, hts⟩ := mem_groupBy.1 hg
    have hmem : t ∈ g.2 := by
      rw [hts]
      exact List.mem_filter.2 ⟨ht, decide_eq_true hkey⟩
    exact List.length_pos_of_mem hmem
  categories := by
    intro start
    rw [((categoryRows_perm db accountIds start).map _).nodup_iff, List.map_map]
    exact nodup_groupBy Transaction.category _
  spent := by
    intro start hwindow
    rw [sum_bar db accountIds now months hwindow MonthlyRow.totalOutCents amountOut
      fun _ _ => rfl]
    exact sum_categoryRows db accountIds start _ amountOut fun _ _ => rfl
  parts := by
    intro start hwindow
    rw [sum_bar db accountIds now months hwindow MonthlyRow.txCount (fun _ => 1)
      (by simp [monthlyRow])]
    exact sum_categoryRows db accountIds start _ (fun _ => 1) (by simp [categoryRow])

end BankDemo.Insights
