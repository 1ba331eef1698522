import BankDemo.Foundations.JsDate

/-!
# Months

The months of the calendar are counted through, from the January of the year 0 (`monthIndex`), so that
the month after another is the next number, whatever the year. `monthDay` is the number of a day of a
month, `monthDays` how many days a month has.

* `civil_monthDay`: the days of a month are found in it.
* `monthDay_carry`: a day after the last of a month is one of the next month.
-/

namespace BankDemo.JsDate

/-- The years of 366 days. -/
def leapYear (year : ℤ) : Bool := year % 4 = 0 ∧ (year % 100 ≠ 0 ∨ year % 400 = 0)

/-- How many days a month of a year has; the months are counted from 0. -/
def daysIn (year month : ℤ) : ℤ :=
  if month = 1 then if leapYear year then 29 else 28
  else if month = 3 ∨ month = 5 ∨ month = 8 ∨ month = 10 then 30 else 31

/-- How many days a month has. -/
def monthDays (k : ℤ) : ℤ := daysIn (k / 12) (k % 12)

/-- The month of an instant. -/
def monthIndex (t : ℤ) : ℤ := 12 * getUTCFullYear t + getUTCMonth t

/-- The number of a day of a month. -/
def monthDay (k day : ℤ) : ℤ := makeDay 0 k day

/-! ## Lengths of months -/

theorem daysIn_range (year month : ℤ) : 28 ≤ daysIn year month ∧ daysIn year month ≤ 31 := by
  unfold daysIn
  split
  · split <;> omega
  · split <;> omega

theorem monthDays_range (k : ℤ) : 28 ≤ monthDays k ∧ monthDays k ≤ 31 := daysIn_range _ _

/-! ## The number of a day of a month -/

theorem makeDay_eq (year month day : ℤ) :
    makeDay year month day = monthDay (12 * year + month) day := by
  have hmod : (12 * year + month).fmod 12 = month.fmod 12 := by
    rw [Int.fmod_eq_emod_of_nonneg _ (by omega), Int.fmod_eq_emod_of_nonneg _ (by omega)]
    omega
  have hdiv : 0 + (12 * year + month).fdiv 12 = year + month.fdiv 12 := by
    rw [Int.fdiv_eq_ediv_of_nonneg _ (by omega), Int.fdiv_eq_ediv_of_nonneg _ (by omega)]
    omega
  simp only [monthDay, makeDay, hmod, hdiv]

theorem monthDay_add (k day n : ℤ) : monthDay k (day + n) = monthDay k day + n :=
  makeDay_add_day 0 k day n

/-- The month of the year from March, and the year that begins then. -/
structure FromMarch (k shifted year : ℤ) : Prop where
  month : k % 12 = if shifted < 10 then shifted + 2 else shifted - 10
  year : k / 12 = if shifted < 10 then year else year + 1
  nonneg : 0 ≤ shifted
  le : shifted ≤ 11

theorem fromMarch (k : ℤ) : ∃ shifted year, FromMarch k shifted year ∧ ∀ day,
    monthDay k day = year / 400 * 146097 + yearStart (year % 400) + (153 * shifted + 2) / 5 + day -
      1 - 719468 := by
  have hmod : k.fmod 12 = k % 12 := Int.fmod_eq_emod_of_nonneg _ (by omega)
  have hdiv : k.fdiv 12 = k / 12 := Int.fdiv_eq_ediv_of_nonneg _ (by omega)
  by_cases hm : k % 12 < 2
  · refine ⟨k % 12 + 10, k / 12 - 1, ⟨by rw [if_neg (by omega)]; omega,
      by rw [if_neg (by omega)]; omega, by omega, by omega⟩, fun day => ?_⟩
    simp only [monthDay, makeDay, hmod, hdiv, if_pos hm, yearStart]
    rw [Int.fdiv_eq_ediv_of_nonneg _ (by omega)]
    omega
  · refine ⟨k % 12 - 2, k / 12, ⟨by rw [if_pos (by omega)]; omega,
      by rw [if_pos (by omega)], by omega, by omega⟩, fun day => ?_⟩
    simp only [monthDay, makeDay, hmod, hdiv, if_neg hm, yearStart]
    rw [Int.fdiv_eq_ediv_of_nonneg _ (by omega)]
    omega

/-- The years that end with a 29 February, counted from March. -/
theorem leapYear_iff (year : ℤ) : leapYear (year + 1) = true ↔
    yearStart (year % 400 + 1) = yearStart (year % 400) + 366 ∨ year % 400 = 399 := by
  simp only [leapYear, yearStart, decide_eq_true_eq]
  omega

/-- The months before February follow each other in fixed steps. -/
theorem FromMarch.days {k shifted year : ℤ} (h : FromMarch k shifted year) (hfeb : shifted ≠ 11) :
    monthDays k = (153 * (shifted + 1) + 2) / 5 - (153 * shifted + 2) / 5 := by
  obtain ⟨hmonth, -, hlo, hhi⟩ := h
  have hne : k % 12 ≠ 1 := by
    split at hmonth <;> omega
  rw [monthDays, daysIn, if_neg hne, hmonth]
  have hcases : shifted = 0 ∨ shifted = 1 ∨ shifted = 2 ∨ shifted = 3 ∨ shifted = 4 ∨ shifted = 5 ∨
      shifted = 6 ∨ shifted = 7 ∨ shifted = 8 ∨ shifted = 9 ∨ shifted = 10 := by
    omega
  rcases hcases with rfl | rfl | rfl | rfl | rfl | rfl | rfl | rfl | rfl | rfl | rfl <;> rfl

theorem FromMarch.february {k year : ℤ} (h : FromMarch k 11 year) :
    monthDays k = if leapYear (year + 1) then 29 else 28 := by
  have hmonth : k % 12 = 1 := h.month
  have hyear : k / 12 = year + 1 := h.year
  rw [monthDays, daysIn, if_pos hmonth, hyear]

/-- The days of a year counted from March are found in it. -/
theorem yearOfEra_eq {y d : ℤ} (hy : 0 ≤ y ∧ y ≤ 399) (hd : 0 ≤ d)
    (hd' : d ≤ 364 ∨ d = 365 ∧ (yearStart (y + 1) = yearStart y + 366 ∨ y = 399)) :
    yearOfEra (yearStart y + d) = y := by
  obtain ⟨m, rfl⟩ := Int.eq_ofNat_of_zero_le hy.1
  obtain ⟨hfirst, hlast⟩ := yearOfEra_ends m (by omega)
  by_cases hend : m = 399 ∧ d = 365
  · obtain ⟨rfl, rfl⟩ := hend
    decide +kernel
  · have hnext : yearStart m + 365 ≤ yearStart (m + 1) := by
      simp only [yearStart]
      omega
    have hlo : yearOfEra (yearStart m) ≤ yearOfEra (yearStart m + d) := yearOfEra_mono (by omega)
    have hhi : yearOfEra (yearStart m + d) ≤ yearOfEra (yearStart (m + 1) - 1) :=
      yearOfEra_mono (by omega)
    omega

/-- A day by its era, its year of the era and its day of the year. -/
theorem civil_of_parts {n era y d : ℤ} (hn : n = era * 146097 + yearStart y + d - 719468)
    (hy : 0 ≤ y ∧ y ≤ 399) (hd : 0 ≤ d)
    (hd' : d ≤ 364 ∨ d = 365 ∧ (yearStart (y + 1) = yearStart y + 366 ∨ y = 399)) :
    civil n = civilOf era y d := by
  have hrange : 0 ≤ yearStart y + d ∧ yearStart y + d ≤ 146096 := by
    simp only [yearStart]
    omega
  have hera : (n + 719468).fdiv 146097 = era := by
    rw [Int.fdiv_eq_ediv_of_nonneg _ (by omega)]
    omega
  have hdayOfEra : n + 719468 - era * 146097 = yearStart y + d := by omega
  have hcivil : civil n = civilOf ((n + 719468).fdiv 146097)
      (yearOfEra (n + 719468 - (n + 719468).fdiv 146097 * 146097))
      (n + 719468 - (n + 719468).fdiv 146097 * 146097 -
        yearStart (yearOfEra (n + 719468 - (n + 719468).fdiv 146097 * 146097))) := rfl
  rw [hcivil, hera, hdayOfEra, yearOfEra_eq hy hd hd', show yearStart y + d - yearStart y = d by
    omega]

/-- **The days of a month are found in it.** -/
theorem civil_monthDay {k day : ℤ} (hday : 1 ≤ day) (hday' : day ≤ monthDays k) :
    civil (monthDay k day) = ⟨k / 12, k % 12 + 1, day⟩ := by
  obtain ⟨shifted, year, hmarch, hnumber⟩ := fromMarch k
  have hlo := hmarch.nonneg
  have hhi := hmarch.le
  -- how far the day is into its year from March
  have hinto : (5 * ((153 * shifted + 2) / 5 + day - 1) + 2) / 153 = shifted ∧
      ((153 * shifted + 2) / 5 + day - 1 ≤ 364 ∨ (153 * shifted + 2) / 5 + day - 1 = 365 ∧
        (yearStart (year % 400 + 1) = yearStart (year % 400) + 366 ∨ year % 400 = 399)) := by
    by_cases hfeb : shifted = 11
    · subst hfeb
      rw [hmarch.february] at hday'
      have hleap := leapYear_iff year
      split at hday'
      · rename_i hl
        have := hleap.1 hl
        omega
      · omega
    · rw [hmarch.days hfeb] at hday'
      omega
  have hcivil : civil (monthDay k day) = civilOf (year / 400) (year % 400)
      ((153 * shifted + 2) / 5 + day - 1) :=
    civil_of_parts (by rw [hnumber]; omega) (by omega) (by omega) hinto.2
  have hmonth := hmarch.month
  have hyear := hmarch.year
  rw [hcivil]
  simp only [civilOf, hinto.1, Civil.mk.injEq]
  split at hmonth
  · rename_i hlt
    rw [if_pos hlt] at hyear
    rw [if_pos hlt]
    split <;> omega
  · rename_i hlt
    rw [if_neg hlt] at hyear
    rw [if_neg hlt]
    split <;> omega

/-- The month after, counted from March. -/
theorem FromMarch.next {k shifted year shifted' year' : ℤ} (h : FromMarch k shifted year)
    (h' : FromMarch (k + 1) shifted' year') :
    if shifted = 11 then shifted' = 0 ∧ year' = year + 1
    else shifted' = shifted + 1 ∧ year' = year := by
  obtain ⟨hmonth, hyear, hlo, hhi⟩ := h
  obtain ⟨hmonth', hyear', hlo', hhi'⟩ := h'
  split at hmonth <;> split at hmonth' <;> split at hyear <;> split at hyear' <;> split <;> omega

/-- **A day after the last of a month** is one of the next month. -/
theorem monthDay_carry (k day : ℤ) : monthDay k (monthDays k + day) = monthDay (k + 1) day := by
  obtain ⟨shifted, year, hmarch, hnumber⟩ := fromMarch k
  obtain ⟨shifted', year', hmarch', hnumber'⟩ := fromMarch (k + 1)
  have hnext := hmarch.next hmarch'
  rw [hnumber, hnumber']
  by_cases hfeb : shifted = 11
  · rw [if_pos hfeb] at hnext
    obtain ⟨rfl, rfl⟩ := hnext
    subst hfeb
    rw [hmarch.february]
    simp only [leapYear, decide_eq_true_eq, yearStart]
    split <;> omega
  · rw [if_neg hfeb] at hnext
    obtain ⟨rfl, rfl⟩ := hnext
    rw [hmarch.days hfeb]
    omega

/-! ## Instants in months -/

theorem monthIndex_div (t : ℤ) : monthIndex t / 12 = getUTCFullYear t ∧
    monthIndex t % 12 = getUTCMonth t := by
  have hrange := civil_range (dayNumber t)
  simp only [monthIndex, getUTCMonth]
  omega

/-- An instant is on a day of its month. -/
theorem monthDay_today (t : ℤ) : monthDay (monthIndex t) (getUTCDate t) = dayNumber t := by
  rw [monthIndex, ← makeDay_eq, makeDay_today]

theorem monthIndex_of_day {t k day : ℤ} (h : dayNumber t = monthDay k day) (hday : 1 ≤ day)
    (hday' : day ≤ monthDays k) : monthIndex t = k ∧ getUTCDate t = day := by
  have hcivil : civil (dayNumber t) = ⟨k / 12, k % 12 + 1, day⟩ := by
    rw [h, civil_monthDay hday hday']
  constructor
  · simp only [monthIndex, getUTCFullYear, getUTCMonth, hcivil]
    omega
  · simp only [getUTCDate, hcivil]

/-- The days of a month come before those of a later one. -/
theorem monthDay_lt {k k' day day' : ℤ} (hk : k < k') (hday : day ≤ monthDays k) (hday' : 1 ≤ day') :
    monthDay k day < monthDay k' day' := by
  have hnext : ∀ m, monthDay (m + 1) 1 = monthDay m 1 + monthDays m := by
    intro m
    rw [← monthDay_carry, Int.add_comm, monthDay_add]
  have hfirst : ∀ n : ℕ, monthDay (k + 1) 1 ≤ monthDay (k + 1 + n) 1 := by
    intro n
    induction n with
    | zero => simp
    | succ n ih =>
      have hrange := monthDays_range (k + 1 + n)
      have hstep := hnext (k + 1 + n)
      push_cast
      rw [← Int.add_assoc, hstep]
      omega
  have hlater := hfirst (k' - k - 1).toNat
  rw [show k + 1 + ((k' - k - 1).toNat : ℤ) = k' by omega] at hlater
  have hmove : ∀ m d, monthDay m d = monthDay m 1 + (d - 1) := by
    intro m d
    rw [← monthDay_add, show 1 + (d - 1) = d by omega]
  have hstep := hnext k
  rw [hmove k day, hmove k' day']
  omega

/-- No day of a month is after its last. -/
theorem getUTCDate_le (t : ℤ) : getUTCDate t ≤ monthDays (monthIndex t) := by
  have htoday := monthDay_today t
  have hday := (civil_range (dayNumber t)).2.2
  by_contra hlt
  -- the day is then found in the next month
  have hcarry := monthDay_carry (monthIndex t) (getUTCDate t - monthDays (monthIndex t))
  rw [show monthDays (monthIndex t) + (getUTCDate t - monthDays (monthIndex t)) = getUTCDate t by
    omega] at hcarry
  have hrange := monthDays_range (monthIndex t)
  have hrange' := monthDays_range (monthIndex t + 1)
  have hdate : getUTCDate t ≤ 31 := hday.2
  obtain ⟨hmonth, -⟩ := monthIndex_of_day (htoday.symm.trans hcarry) (by omega) (by omega)
  omega

end BankDemo.JsDate
