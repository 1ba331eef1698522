import Mathlib.Algebra.BigOperators.Group.List.Basic
import Mathlib.Algebra.Order.Ring.Int

/-!
# Shares by weight

An amount split by weights, each share rounded down. What the roundings leave of the amount is less
than a unit for each share (`rest_range`).
-/

namespace BankDemo.Shares

/-- A share by weight, rounded down. -/
def share (amount total weight : ℤ) : ℤ := amount * weight / total

/-- What the shares leave of the amount. -/
def rest (amount : ℤ) (weights : List ℤ) : ℤ :=
  amount - (weights.map (share amount weights.sum)).sum

theorem share_nonneg {amount total weight : ℤ} (hamount : 0 ≤ amount) (htotal : 0 ≤ total)
    (hweight : 0 ≤ weight) : 0 ≤ share amount total weight :=
  Int.ediv_nonneg (Int.mul_nonneg hamount hweight) htotal

/-- The shares and the remainders of the divisions make up the amount. -/
theorem sum_share (amount total : ℤ) (weights : List ℤ) :
    total * (weights.map (share amount total)).sum +
      (weights.map fun w => amount * w % total).sum = amount * weights.sum := by
  induction weights with
  | nil => simp
  | cons w weights ih =>
    have hdiv : total * share amount total w + amount * w % total = amount * w :=
      Int.mul_ediv_add_emod (amount * w) total
    simp only [List.map_cons, List.sum_cons, Int.mul_add]
    omega

theorem remainders_nonneg (amount : ℤ) {total : ℤ} (htotal : 0 < total) (weights : List ℤ) :
    0 ≤ (weights.map fun w => amount * w % total).sum := by
  induction weights with
  | nil => simp
  | cons w weights ih =>
    have hnonneg := Int.emod_nonneg (amount * w) htotal.ne'
    simp only [List.map_cons, List.sum_cons]
    omega

theorem remainders_le (amount : ℤ) {total : ℤ} (htotal : 0 < total) (weights : List ℤ) :
    (weights.map fun w => amount * w % total).sum ≤ weights.length * (total - 1) := by
  induction weights with
  | nil => simp
  | cons w weights ih =>
    have hlt := Int.emod_lt_of_pos (amount * w) htotal
    simp only [List.map_cons, List.sum_cons, List.length_cons]
    push_cast
    rw [Int.add_mul, Int.one_mul]
    omega

/-- Less than a unit for each share is left. -/
theorem rest_range (amount : ℤ) {weights : List ℤ} (hpos : 0 < weights.sum) :
    0 ≤ rest amount weights ∧ rest amount weights < weights.length := by
  have hsum := sum_share amount weights.sum weights
  have hlo := remainders_nonneg amount hpos weights
  have hhi := remainders_le amount hpos weights
  have hlength : 0 < (weights.length : ℤ) := by
    cases weights with
    | nil => simp at hpos
    | cons w weights => simp
  have hrest : weights.sum * rest amount weights =
      (weights.map fun w => amount * w % weights.sum).sum := by
    rw [rest, Int.mul_sub, ← hsum.trans (Int.mul_comm _ _)]
    omega
  constructor
  · by_contra hneg
    have := Int.mul_neg_of_pos_of_neg hpos (Int.not_le.1 hneg)
    omega
  · by_contra hbig
    have hmul : weights.sum * weights.length ≤ weights.sum * rest amount weights :=
      Int.mul_le_mul_of_nonneg_left (Int.not_lt.1 hbig) hpos.le
    rw [Int.mul_sub, Int.mul_one, Int.mul_comm _ weights.sum] at hhi
    omega

end BankDemo.Shares
