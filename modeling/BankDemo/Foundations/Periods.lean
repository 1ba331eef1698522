import Mathlib.Algebra.BigOperators.Group.List.Basic
import Mathlib.Data.List.Sort
import Mathlib.Order.Basic
import Mathlib.Tactic.Abel

/-!
# Dated amounts

A list of things with a date and an amount. What was there before a date is the sum of the amounts
dated earlier (`upTo`), and a period, which begins with its first date and ends before its last, has
the things dated in it (`during`). Periods that follow each other fit together
(`upTo_add_during`); the amounts in sequence make the balances in sequence (`balances`).
-/

namespace BankDemo.Periods

variable {α τ G : Type*} [LinearOrder τ] [AddCommGroup G] (date : α → τ) (amount : α → G)

/-- The sum of the amounts dated before `t`. -/
def upTo (l : List α) (t : τ) : G := ((l.filter fun a => date a < t).map amount).sum

/-- What is dated from `s` on and before `t`. -/
def during (l : List α) (s t : τ) : List α := l.filter fun a => s ≤ date a && date a < t

variable {date amount}

theorem mem_during {l : List α} {s t : τ} {a : α} :
    a ∈ during date l s t ↔ a ∈ l ∧ s ≤ date a ∧ date a < t := by
  simp [during]

/-- **Periods fit together**: what was there before a period and what is dated in it. -/
theorem upTo_add_during (l : List α) {s t : τ} (h : s ≤ t) :
    upTo date amount l s + ((during date l s t).map amount).sum = upTo date amount l t := by
  induction l with
  | nil => simp [upTo, during]
  | cons a l ih =>
    simp only [upTo, during, List.filter_cons] at ih ⊢
    by_cases hs : date a < s
    · have ht : date a < t := lt_of_lt_of_le hs h
      simp only [hs, ht, not_le.2 hs, decide_true, decide_false, Bool.false_and, if_true,
        List.map_cons, List.sum_cons]
      rw [← ih]
      simp [add_assoc]
    · by_cases ht : date a < t
      · simp only [hs, ht, not_lt.1 hs, decide_true, decide_false, Bool.true_and, if_true,
          List.map_cons, List.sum_cons]
        rw [← ih]
        simp [add_left_comm]
      · simp only [hs, ht, decide_false, Bool.and_false]
        simpa using ih

/-- A longer period has what the shorter one has and what is dated after that. -/
theorem length_during (l : List α) {s t u : τ} (hst : s ≤ t) (htu : t ≤ u) :
    (during date l s u).length = (during date l s t).length + (during date l t u).length := by
  induction l with
  | nil => rfl
  | cons a l ih =>
    simp only [during, List.filter_cons] at ih ⊢
    by_cases ht : date a < t
    · have hu : date a < u := lt_of_lt_of_le ht htu
      by_cases hs : s ≤ date a
      · simp [hs, ht, hu, not_le.2 ht, ih, Nat.add_right_comm]
      · simp [hs, ht, not_le.2 ht, ih]
    · have hs : s ≤ date a := le_trans hst (not_lt.1 ht)
      by_cases hu : date a < u
      · simp [hs, ht, hu, not_lt.1 ht, ih, Nat.add_assoc]
      · simp [ht, hu, ih]

/-- Nothing is dated between the end of a period and a later end exactly if both periods have the
same. -/
theorem during_eq_iff (l : List α) {s t u : τ} (hst : s ≤ t) (htu : t ≤ u) :
    (during date l s u).length = (during date l s t).length ↔ during date l t u = [] := by
  rw [length_during l hst htu, ← List.length_eq_zero_iff]
  omega

theorem during_of_empty (l : List α) {s t u : τ} (htu : t ≤ u)
    (h : during date l t u = []) : during date l s u = during date l s t := by
  apply List.filter_congr
  intro a ha
  have hout : ¬ (t ≤ date a ∧ date a < u) := by
    intro hin
    have hmem : a ∈ during date l t u := mem_during.2 ⟨ha, hin⟩
    rw [h] at hmem
    simp at hmem
  by_cases ht : date a < t
  · simp [ht, lt_of_lt_of_le ht htu]
  · have hu : ¬ date a < u := fun hu => hout ⟨not_lt.1 ht, hu⟩
    simp [ht, hu]

/-! ## Balances in sequence -/

/-- The balance after each of the amounts. -/
def balances (opening : G) : List G → List G
  | [] => []
  | x :: xs => (opening + x) :: balances (opening + x) xs

/-- The balance after an amount: what was there before and the amounts up to it. -/
theorem balances_getElem? {opening b : G} {xs : List G} {i : ℕ}
    (h : (balances opening xs)[i]? = some b) : b = opening + (xs.take (i + 1)).sum := by
  induction xs generalizing opening i with
  | nil => simp [balances] at h
  | cons x xs ih =>
    cases i with
    | zero =>
      simp only [balances, List.getElem?_cons_zero, Option.some.injEq] at h
      simp [← h]
    | succ i =>
      simp only [balances, List.getElem?_cons_succ] at h
      rw [ih h, List.take_succ_cons, List.sum_cons, add_assoc]

/-- What comes in less what goes out is the change. -/
theorem sum_filter_sub (p : G → Bool) (xs : List G) :
    (xs.filter p).sum - ((xs.filter fun x => !p x).map Neg.neg).sum = xs.sum := by
  induction xs with
  | nil => simp
  | cons x xs ih =>
    cases hp : p x with
    | true => simp [hp, ← ih, add_sub_assoc]
    | false =>
      simp only [List.filter_cons, hp, Bool.not_false, if_true, List.map_cons, List.sum_cons,
        ← ih]
      simp
      abel

end BankDemo.Periods
