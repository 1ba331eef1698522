import Mathlib.Data.Int.Log
import Mathlib.Data.Rat.Floor
import Mathlib.Tactic.Linarith
import Mathlib.Tactic.FieldSimp
import Mathlib.Tactic.Positivity

/-!
# Numbers as in JavaScript

A number is a double: what an operation gives is rounded to 53 binary digits. Here this is done to
positive rational numbers in the range of the normal ones.

* `double_le`: the rounding adds at most one part in 2⁵³.
* `percent_le`: a percentage that is computed by a division and a multiplication and then rounded
  down is never more than the exact one, for whole numbers that are not too large.
-/

namespace BankDemo.JsNumber

/-- The nearest whole number, and the even one of two. -/
def roundEven (q : ℚ) : ℤ :=
  if q - ⌊q⌋ < 1 / 2 ∨ (q - ⌊q⌋ = 1 / 2 ∧ ⌊q⌋ % 2 = 0) then ⌊q⌋ else ⌊q⌋ + 1

/-- The place of the last of the 53 digits. -/
def unit (q : ℚ) : ℚ := 2 ^ (Int.log 2 q - 52)

/-- The double nearest to a positive number. -/
def double (q : ℚ) : ℚ := roundEven (q / unit q) * unit q

theorem roundEven_le (q : ℚ) : (roundEven q : ℚ) ≤ q + 1 / 2 := by
  have hfloor := Int.floor_le q
  unfold roundEven
  split
  · linarith
  · next h =>
    rw [not_or, not_lt] at h
    push_cast
    linarith [h.1]

theorem roundEven_nonneg {q : ℚ} (hq : 0 ≤ q) : 0 ≤ roundEven q := by
  have hfloor := Int.floor_nonneg.2 hq
  unfold roundEven
  split <;> omega

theorem unit_pos (q : ℚ) : 0 < unit q := zpow_pos (by norm_num) _

theorem unit_le {q : ℚ} (hq : 0 < q) : unit q ≤ q / 2 ^ 52 := by
  have hlog : (2 : ℚ) ^ Int.log 2 q ≤ q := Int.zpow_log_le_self (by norm_num) hq
  rw [unit, zpow_sub₀ (by norm_num), show ((2 : ℚ) ^ (52 : ℤ)) = 2 ^ 52 from zpow_natCast 2 52]
  gcongr

theorem double_nonneg {q : ℚ} (hq : 0 ≤ q) : 0 ≤ double q := by
  have hround : (0 : ℚ) ≤ roundEven (q / unit q) :=
    Int.cast_nonneg (roundEven_nonneg (div_nonneg hq (unit_pos q).le))
  exact mul_nonneg hround (unit_pos q).le

/-- The rounding adds half a unit at most, and so one part in 2⁵³. -/
theorem double_le {q : ℚ} (hq : 0 ≤ q) : double q ≤ q * (1 + 1 / 2 ^ 53) := by
  rcases hq.eq_or_lt with rfl | hpos
  · simp [double, roundEven]
  · have hunit := unit_pos q
    calc double q ≤ (q / unit q + 1 / 2) * unit q := by
          unfold double
          gcongr
          exact roundEven_le _
      _ = q + unit q / 2 := by field_simp
      _ ≤ q + q / 2 ^ 52 / 2 := by
          gcongr
          exact unit_le hpos
      _ = q * (1 + 1 / 2 ^ 53) := by ring

/-- `Math.floor((part / total) * 100)`. -/
def percent (part total : ℤ) : ℤ := ⌊double (double (part / total) * 100)⌋

/-- 58 of 200 are 29 percent, but 0.29 times 100 is a little less. -/
example : percent 58 200 = 28 := by decide +kernel

theorem percent_nonneg {part total : ℤ} (hpart : 0 ≤ part) (htotal : 0 ≤ total) :
    0 ≤ percent part total := by
  have hquotient : (0 : ℚ) ≤ part / total :=
    div_nonneg (Int.cast_nonneg hpart) (Int.cast_nonneg htotal)
  exact Int.floor_nonneg.2 (double_nonneg (mul_nonneg (double_nonneg hquotient) (by norm_num)))

/-- The roundings do not add enough for another percent: the next one is a `total`-th away. -/
theorem percent_le {part total : ℤ} (hpart : 0 ≤ part) (hle : part ≤ total) (hpos : 0 < total)
    (hsmall : total ≤ 2 ^ 40) : percent part total ≤ part * 100 / total := by
  have htotal : (0 : ℚ) < total := Int.cast_pos.2 hpos
  have hquotient : (0 : ℚ) ≤ part / total := div_nonneg (Int.cast_nonneg hpart) htotal.le
  have hone : (part : ℚ) / total ≤ 1 := (div_le_one htotal).2 (Int.cast_le.2 hle)
  have hdouble : double (double (part / total) * 100) ≤
      (part / total) * 100 * (1 + 1 / 2 ^ 53) * (1 + 1 / 2 ^ 53) := by
    calc double (double (part / total) * 100)
        ≤ double (part / total) * 100 * (1 + 1 / 2 ^ 53) :=
          double_le (mul_nonneg (double_nonneg hquotient) (by norm_num))
      _ ≤ (part / total) * (1 + 1 / 2 ^ 53) * 100 * (1 + 1 / 2 ^ 53) := by
          gcongr
          exact double_le hquotient
      _ = (part / total) * 100 * (1 + 1 / 2 ^ 53) * (1 + 1 / 2 ^ 53) := by ring
  rw [Int.le_ediv_iff_mul_le hpos]
  by_contra hmore
  rw [not_le] at hmore
  -- a whole percent more is more than the roundings can add
  have hnext : (part * 100 + 1 : ℚ) ≤ percent part total * total := by
    exact_mod_cast Int.add_one_le_iff.2 hmore
  have hfloor : (percent part total : ℚ) ≤
      (part / total) * 100 * (1 + 1 / 2 ^ 53) * (1 + 1 / 2 ^ 53) := (Int.floor_le _).trans hdouble
  have hrounded : (part * 100 + 1 : ℚ) ≤
      (part / total) * 100 * (1 + 1 / 2 ^ 53) * (1 + 1 / 2 ^ 53) * total :=
    hnext.trans (mul_le_mul_of_nonneg_right hfloor htotal.le)
  have hcancel : (part / total : ℚ) * 100 * (1 + 1 / 2 ^ 53) * (1 + 1 / 2 ^ 53) * total =
      part * 100 * (1 + 1 / 2 ^ 53) * (1 + 1 / 2 ^ 53) := by
    field_simp
  have hbound : (part : ℚ) ≤ 2 ^ 40 := by exact_mod_cast hle.trans hsmall
  rw [hcancel] at hrounded
  norm_num at hrounded hbound
  linarith

end BankDemo.JsNumber
