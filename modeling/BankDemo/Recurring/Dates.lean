import BankDemo.Foundations.Months
import BankDemo.Recurring.Service

/-!
# The next date of a schedule

`computeNextRunAt` with the limits of `Date`: each setter may leave an invalid date, and what is
computed from one is invalid (`computeNextRunDate`). Where the date is valid, the two agree
(`computeNextRunDate_eq`).

`setUTCMonth` keeps the day of the month, and where the next month is shorter than that, the date is in
the month after it (`landing`). `monthly_date` says where the date is in the end.
-/

namespace BankDemo.Recurring

open JsDate

/-- `computeNextRunAt` on dates. An invalid date is `none`. -/
def computeNextRunDate (d : Instant) (frequency : RecurringFrequency) (dayOf : ℤ) :
    Option Instant :=
  match frequency with
  | .weekly => do
    let d ← timeClip (setUTCDate d (getUTCDate d + daysUntil d dayOf))
    timeClip (setUTCHours d 9)
  | .biweekly => do
    let d ← timeClip (setUTCDate d (getUTCDate d + daysUntil d dayOf + 7))
    timeClip (setUTCHours d 9)
  | .monthly => do
    let d ← timeClip (setUTCMonth d (getUTCMonth d + 1))
    let last ← timeClip (utc (getUTCFullYear d) (getUTCMonth d + 1) 0)
    let d ← timeClip (setUTCDate d (min dayOf (getUTCDate last)))
    timeClip (setUTCHours d 9)

/-! ## Setters -/

/-- Nine o'clock on the day with a number. -/
def nineOn (day : ℤ) : Instant := day * msPerDay + 9 * 3600000

theorem timeClip_eq_some {t u : ℤ} : timeClip t = some u ↔ u = t ∧ t.natAbs ≤ 8640000000000000 := by
  unfold timeClip
  split
  · rename_i h
    simp [h, eq_comm]
  · rename_i h
    simp [h]

theorem dayNumber_add {day ms : ℤ} (hms : 0 ≤ ms) (hms' : ms < msPerDay) :
    dayNumber (day * msPerDay + ms) = day ∧ msInDay (day * msPerDay + ms) = ms := by
  have hday : dayNumber (day * msPerDay + ms) = day := by
    simp only [dayNumber, msPerDay] at hms' ⊢
    rw [Int.fdiv_eq_ediv_of_nonneg _ (by omega)]
    omega
  refine ⟨hday, ?_⟩
  rw [msInDay, hday]
  omega

theorem nineOn_parts (day : ℤ) :
    dayNumber (nineOn day) = day ∧ msInDay (nineOn day) = 9 * 3600000 :=
  dayNumber_add (by omega) (by simp only [msPerDay]; omega)

theorem setUTCHours_nine (t : Instant) : setUTCHours t 9 = nineOn (dayNumber t) := rfl

/-- `setUTCDate` sets the day of the month, and keeps the time of the day. -/
theorem setUTCDate_parts (t : Instant) (day : ℤ) :
    setUTCDate t day = monthDay (monthIndex t) day * msPerDay + msInDay t ∧
      dayNumber (setUTCDate t day) = monthDay (monthIndex t) day := by
  have hset : setUTCDate t day = monthDay (monthIndex t) day * msPerDay + msInDay t := by
    rw [setUTCDate, makeDay_eq, monthIndex]
  have hms := msInDay_range t
  refine ⟨hset, ?_⟩
  rw [hset]
  exact (dayNumber_add hms.1 hms.2).1

/-- A number of days later. -/
theorem setUTCDate_later (t : Instant) (n : ℤ) :
    dayNumber (setUTCDate t (getUTCDate t + n)) = dayNumber t + n := by
  rw [(setUTCDate_parts t _).2, monthDay_add, monthDay_today]

theorem setUTCMonth_next (t : Instant) :
    setUTCMonth t (getUTCMonth t + 1) =
        monthDay (monthIndex t + 1) (getUTCDate t) * msPerDay + msInDay t ∧
      dayNumber (setUTCMonth t (getUTCMonth t + 1)) =
        monthDay (monthIndex t + 1) (getUTCDate t) := by
  have hset : setUTCMonth t (getUTCMonth t + 1) =
      monthDay (monthIndex t + 1) (getUTCDate t) * msPerDay + msInDay t := by
    rw [setUTCMonth, makeDay_eq, monthIndex, Int.add_assoc]
  have hms := msInDay_range t
  refine ⟨hset, ?_⟩
  rw [hset]
  exact (dayNumber_add hms.1 hms.2).1

/-! ## Where `setUTCMonth` lands -/

/-- The month that `setUTCMonth` lands in. -/
def landing (t : Instant) : ℤ :=
  if getUTCDate t ≤ monthDays (monthIndex t + 1) then monthIndex t + 1 else monthIndex t + 2

theorem monthIndex_setUTCMonth (t : Instant) :
    monthIndex (setUTCMonth t (getUTCMonth t + 1)) = landing t := by
  have hday := (civil_range (dayNumber t)).2.2
  have hlo : 1 ≤ getUTCDate t := hday.1
  have hhi : getUTCDate t ≤ 31 := hday.2
  have hnumber := (setUTCMonth_next t).2
  unfold landing
  split
  · rename_i hfits
    exact (monthIndex_of_day hnumber hlo hfits).1
  · rename_i hlong
    have hrange := monthDays_range (monthIndex t + 1)
    have hrange' := monthDays_range (monthIndex t + 2)
    have hcarry := monthDay_carry (monthIndex t + 1) (getUTCDate t - monthDays (monthIndex t + 1))
    rw [show monthDays (monthIndex t + 1) + (getUTCDate t - monthDays (monthIndex t + 1)) =
      getUTCDate t by omega, show monthIndex t + 1 + 1 = monthIndex t + 2 by omega] at hcarry
    exact (monthIndex_of_day (hnumber.trans hcarry) (by omega) (by omega)).1

/-- The last day of a month, by `Date.UTC(year, month + 1, 0)`. -/
def lastDayOf (k : ℤ) : ℤ :=
  daysIn (if 0 ≤ k / 12 ∧ k / 12 ≤ 99 then 1900 + k / 12 else k / 12) (k % 12)

/-- It is right but for the February of the year 0, for which that of 1900 is taken. -/
theorem lastDayOf_eq (k : ℤ) : lastDayOf k = if k = 1 then 28 else monthDays k := by
  unfold lastDayOf monthDays daysIn
  simp only [leapYear, decide_eq_true_eq]
  split_ifs <;> omega

theorem lastDayOf_range (k : ℤ) : 28 ≤ lastDayOf k ∧ lastDayOf k ≤ monthDays k := by
  have hrange := monthDays_range k
  rw [lastDayOf_eq]
  split <;> omega

/-- The number of the day before the first of the next month. -/
theorem utc_lastDay (t : Instant) :
    utc (getUTCFullYear t) (getUTCMonth t + 1) 0 =
        monthDay (monthIndex t + 1 +
          if 0 ≤ getUTCFullYear t ∧ getUTCFullYear t ≤ 99 then 22800 else 0) 0 * msPerDay ∧
      getUTCDate (utc (getUTCFullYear t) (getUTCMonth t + 1) 0) = lastDayOf (monthIndex t) := by
  obtain ⟨hyear, hmonth⟩ := monthIndex_div t
  obtain ⟨k, hk⟩ : ∃ k, k = monthIndex t +
      if 0 ≤ getUTCFullYear t ∧ getUTCFullYear t ≤ 99 then 22800 else 0 := ⟨_, rfl⟩
  have hutc : utc (getUTCFullYear t) (getUTCMonth t + 1) 0 = monthDay (k + 1) 0 * msPerDay := by
    rw [utc, makeDay_eq, hk]
    congr 2
    simp only [monthIndex]
    split <;> omega
  have hlast : lastDayOf (monthIndex t) = monthDays k := by
    rw [lastDayOf, monthDays, hyear, hmonth, hk]
    simp only [monthIndex] at hyear hmonth ⊢
    split
    · congr 1 <;> omega
    · congr 1 <;> omega
  have hcarry := monthDay_carry k 0
  have hrange := monthDays_range k
  rw [Int.add_zero] at hcarry
  refine ⟨?_, ?_⟩
  · rw [hutc, hk]
    congr 2
    omega
  · have hmidnight := (@dayNumber_add (monthDay (k + 1) 0) 0 (by omega) (by decide)).1
    have hday : dayNumber (monthDay (k + 1) 0 * msPerDay) = monthDay k (monthDays k) := by
      rw [Int.add_zero] at hmidnight
      rw [hmidnight, hcarry]
    rw [hutc, hlast]
    exact (monthIndex_of_day hday (by omega) (by omega)).2

/-! ## The end of the calendar -/

/-- August 275760, the last month of which all days are dates. -/
def lastMonth : ℤ := 12 * 275760 + 7

/-- The days from one date on, up to the end of that month, are dates at any time of the day. -/
theorem timeClip_of_day {d t : Instant} (hdate : timeClip d = some d)
    (hlo : dayNumber d ≤ dayNumber t) (hhi : dayNumber t < monthDay (lastMonth + 1) 1) :
    timeClip t = some t := by
  have hend : monthDay (lastMonth + 1) 1 = 99999988 := by decide
  have hms := msInDay_range t
  have hrange := (timeClip_eq_some.1 hdate).2
  refine timeClip_eq_some.2 ⟨rfl, ?_⟩
  have hnumber : -100000000 ≤ dayNumber d := by
    simp only [dayNumber, msPerDay]
    rw [Int.fdiv_eq_ediv_of_nonneg _ (by omega)]
    omega
  simp only [msInDay, msPerDay] at hms
  omega

theorem landing_range (d : Instant) : monthIndex d < landing d ∧ landing d ≤ monthIndex d + 2 := by
  unfold landing
  split <;> omega

/-- No day of the July before is missing in August. -/
theorem landing_le {d : Instant} (h : monthIndex d < lastMonth) : landing d ≤ lastMonth := by
  have haugust : monthDays lastMonth = 31 := by decide
  have hday : getUTCDate d ≤ 31 := (civil_range (dayNumber d)).2.2.2
  unfold landing
  split
  · omega
  · rename_i hlong
    have hne : monthIndex d + 1 ≠ lastMonth := by
      intro heq
      rw [heq] at hlong
      omega
    omega

/-- The days from the last of a month on, up to the end of a later one. -/
theorem monthDay_range {d : Instant} {k day : ℤ} (hk : monthIndex d < k) (hk' : k ≤ lastMonth)
    (hday : 0 ≤ day) (hday' : day ≤ monthDays k) :
    dayNumber d ≤ monthDay k day ∧ monthDay k day < monthDay (lastMonth + 1) 1 := by
  refine ⟨?_, monthDay_lt (by omega) hday' (by omega)⟩
  have hcarry := monthDay_carry (k - 1) 0
  rw [Int.add_zero, Int.sub_add_cancel] at hcarry
  have hmove : monthDay k day = monthDay k 0 + day := by
    rw [← monthDay_add, Int.zero_add]
  have hlast := getUTCDate_le d
  have hend : dayNumber d ≤ monthDay (k - 1) (monthDays (k - 1)) := by
    rw [← monthDay_today d]
    rcases Int.lt_or_eq_of_le (show monthIndex d ≤ k - 1 by omega) with hlt | heq
    · have := monthDays_range (k - 1)
      exact (monthDay_lt hlt hlast (by omega)).le
    · rw [← heq]
      have hmove' : ∀ n, monthDay (monthIndex d) n = monthDay (monthIndex d) 0 + n := by
        intro n
        rw [← monthDay_add, Int.zero_add]
      rw [hmove', hmove' (monthDays (monthIndex d))]
      omega
  omega

/-- The last day of a month, as an instant. -/
theorem timeClip_lastDay {d : Instant} (hdate : timeClip d = some d) {k : ℤ}
    (hk : monthIndex d < k) (hk' : k ≤ lastMonth) :
    timeClip (monthDay (k + 1) 0 * msPerDay) = some (monthDay (k + 1) 0 * msPerDay) := by
  have hrange := monthDays_range k
  have hcarry := monthDay_carry k 0
  have hmidnight := (@dayNumber_add (monthDay (k + 1) 0) 0 (by omega) (by decide)).1
  rw [Int.add_zero] at hcarry hmidnight
  obtain ⟨hlo, hhi⟩ := monthDay_range hk hk' (show 0 ≤ monthDays k by omega) le_rfl
  rw [hcarry, ← hmidnight] at hlo hhi
  exact timeClip_of_day hdate hlo hhi

/-- **Where a monthly schedule is next**: in the month that `setUTCMonth` lands in. -/
theorem monthly_date {d : Instant} (hdate : timeClip d = some d) {dayOf : ℤ} (hday : 0 ≤ dayOf) :
    computeNextRunDate d .monthly dayOf = if monthIndex d < lastMonth then
      some (nineOn (monthDay (landing d) (min dayOf (lastDayOf (landing d))))) else none := by
  have hindex := monthIndex_setUTCMonth d
  have hnumber := (setUTCDate_parts (setUTCMonth d (getUTCMonth d + 1))
    (min dayOf (lastDayOf (landing d)))).2
  obtain ⟨hlast, hlastDate⟩ := utc_lastDay (setUTCMonth d (getUTCMonth d + 1))
  obtain ⟨hyear, -⟩ := monthIndex_div (setUTCMonth d (getUTCMonth d + 1))
  have hlanding := landing_range d
  have hrange := monthDays_range (landing d)
  have hcode := lastDayOf_range (landing d)
  rw [hindex] at hlast hlastDate hnumber hyear
  simp only [computeNextRunDate]
  split
  · rename_i hk
    have hle := landing_le hk
    have hfirst : timeClip (setUTCMonth d (getUTCMonth d + 1)) =
        some (setUTCMonth d (getUTCMonth d + 1)) := by
      have hdays := (civil_range (dayNumber (setUTCMonth d (getUTCMonth d + 1)))).2.2
      have hbound := monthDay_range hlanding.1 hle
        (show 0 ≤ getUTCDate (setUTCMonth d (getUTCMonth d + 1)) from hdays.1.trans' (by omega))
        (hindex ▸ getUTCDate_le _)
      rw [← hindex, monthDay_today] at hbound
      exact timeClip_of_day hdate hbound.1 hbound.2
    have hsecond : timeClip (utc (getUTCFullYear (setUTCMonth d (getUTCMonth d + 1)))
        (getUTCMonth (setUTCMonth d (getUTCMonth d + 1)) + 1) 0) =
          some (utc (getUTCFullYear (setUTCMonth d (getUTCMonth d + 1)))
            (getUTCMonth (setUTCMonth d (getUTCMonth d + 1)) + 1) 0) := by
      rw [hlast]
      split
      · -- a year of two digits is taken for one of the twentieth century
        rw [show landing d + 1 + 22800 = landing d + 22800 + 1 by omega]
        exact timeClip_lastDay hdate (by omega) (by simp only [lastMonth]; omega)
      · rw [Int.add_zero]
        exact timeClip_lastDay hdate hlanding.1 hle
    have hthird : timeClip (setUTCDate (setUTCMonth d (getUTCMonth d + 1))
        (min dayOf (lastDayOf (landing d)))) = some (setUTCDate
          (setUTCMonth d (getUTCMonth d + 1)) (min dayOf (lastDayOf (landing d)))) := by
      have hbound := monthDay_range hlanding.1 hle
        (show 0 ≤ min dayOf (lastDayOf (landing d)) by omega) (by omega)
      rw [← hnumber] at hbound
      exact timeClip_of_day hdate hbound.1 hbound.2
    have hfourth : timeClip (nineOn (monthDay (landing d) (min dayOf (lastDayOf (landing d))))) =
        some (nineOn (monthDay (landing d) (min dayOf (lastDayOf (landing d))))) := by
      have hbound := monthDay_range hlanding.1 hle
        (show 0 ≤ min dayOf (lastDayOf (landing d)) by omega) (by omega)
      rw [← (nineOn_parts (monthDay (landing d) _)).1] at hbound
      exact timeClip_of_day hdate hbound.1 hbound.2
    simp only [hfirst, hsecond, hlastDate, hthird, setUTCHours_nine, hnumber, hfourth,
      Option.bind_eq_bind, Option.bind_some]
  · rename_i hk
    have hafter : lastMonth + 1 ≤ landing d := by omega
    have hend : monthDay (lastMonth + 1) 30 = 100000017 := by decide
    have hcarry := monthDay_carry (landing d) 0
    rw [Int.add_zero] at hcarry
    have hbeyond : 100000017 ≤ monthDay (landing d + 1) 0 := by
      rw [← hcarry, ← hend]
      rcases Int.lt_or_eq_of_le hafter with hlt | heq
      · exact (monthDay_lt hlt (by decide) (by omega)).le
      · rw [← heq]
        have hsep : monthDays (lastMonth + 1) = 30 := by decide
        rw [hsep]
    have hsecond : timeClip (utc (getUTCFullYear (setUTCMonth d (getUTCMonth d + 1)))
        (getUTCMonth (setUTCMonth d (getUTCMonth d + 1)) + 1) 0) = none := by
      rw [hlast, if_neg (by simp only [lastMonth] at hafter; omega), Int.add_zero, timeClip, if_neg]
      simp only [msPerDay]
      omega
    cases hfirst : timeClip (setUTCMonth d (getUTCMonth d + 1)) with
    | none => rfl
    | some t =>
      obtain ⟨rfl, -⟩ := timeClip_eq_some.1 hfirst
      simp only [Option.bind_eq_bind, Option.bind_some, hsecond, Option.bind_none]

/-- A date on a day that `monthly_date` gives. -/
theorem landed_parts {k dayOf : ℤ} (hday : 1 ≤ dayOf) :
    monthIndex (nineOn (monthDay k (min dayOf (lastDayOf k)))) = k ∧
      getUTCDate (nineOn (monthDay k (min dayOf (lastDayOf k)))) = min dayOf (lastDayOf k) := by
  have hrange := lastDayOf_range k
  exact monthIndex_of_day (nineOn_parts _).1 (by omega) (by omega)

/-! ## Weeks -/

theorem daysUntil_spec (d : Instant) {dayOf : ℤ} (hday : 0 ≤ dayOf) :
    1 ≤ daysUntil d dayOf ∧ daysUntil d dayOf ≤ 7 ∧
      (dayNumber d + daysUntil d dayOf + 4) % 7 = dayOf % 7 := by
  have hweekday : 0 ≤ getUTCDay d ∧ getUTCDay d ≤ 6 := by
    simp only [getUTCDay]
    omega
  have hmod : (dayNumber d + 4) % 7 = getUTCDay d % 7 := by
    simp only [getUTCDay]
    omega
  simp only [daysUntil]
  rw [Int.tmod_eq_emod_of_nonneg (by omega)]
  split <;> omega

/-- A number of days later at nine, where that day is a date. -/
theorem later_date {d : Instant} (hdate : timeClip d = some d) {n : ℤ} (hn : 0 ≤ n) :
    (timeClip (setUTCDate d (getUTCDate d + n)) >>= fun t => timeClip (setUTCHours t 9)) =
      if dayNumber d + n < 100000000 then some (nineOn (dayNumber d + n)) else none := by
  have hlater := setUTCDate_later d n
  have hms := msInDay_range d
  have hlow : -100000000 ≤ dayNumber d := by
    have hrange := (timeClip_eq_some.1 hdate).2
    simp only [dayNumber, msPerDay]
    rw [Int.fdiv_eq_ediv_of_nonneg _ (by omega)]
    omega
  obtain ⟨hset, hday⟩ := setUTCDate_parts d (getUTCDate d + n)
  rw [hlater] at hday
  rw [← hday] at hset
  split
  · rename_i hin
    have hfirst : timeClip (setUTCDate d (getUTCDate d + n)) =
        some (setUTCDate d (getUTCDate d + n)) := by
      refine timeClip_eq_some.2 ⟨rfl, ?_⟩
      rw [hset, msPerDay]
      omega
    have hsecond : timeClip (nineOn (dayNumber d + n)) = some (nineOn (dayNumber d + n)) := by
      refine timeClip_eq_some.2 ⟨rfl, ?_⟩
      rw [nineOn, msPerDay]
      omega
    simp only [hfirst, setUTCHours_nine, hlater, hsecond, Option.bind_eq_bind, Option.bind_some]
  · rename_i hout
    cases hfirst : timeClip (setUTCDate d (getUTCDate d + n)) with
    | none => rfl
    | some t =>
      obtain ⟨rfl, -⟩ := timeClip_eq_some.1 hfirst
      have hsecond : timeClip (nineOn (dayNumber d + n)) = none := by
        rw [timeClip, if_neg]
        rw [nineOn, msPerDay]
        omega
      simp only [Option.bind_eq_bind, Option.bind_some, setUTCHours_nine, hlater, hsecond]

theorem weekly_date {d : Instant} (hdate : timeClip d = some d) {dayOf : ℤ} (hday : 0 ≤ dayOf) :
    computeNextRunDate d .weekly dayOf = if dayNumber d + daysUntil d dayOf < 100000000 then
      some (nineOn (dayNumber d + daysUntil d dayOf)) else none := by
  have hdays := daysUntil_spec d hday
  exact later_date hdate (by omega)

theorem biweekly_date {d : Instant} (hdate : timeClip d = some d) {dayOf : ℤ}
    (hday : 0 ≤ dayOf) :
    computeNextRunDate d .biweekly dayOf =
      if dayNumber d + (daysUntil d dayOf + 7) < 100000000 then
        some (nineOn (dayNumber d + (daysUntil d dayOf + 7))) else none := by
  have hdays := daysUntil_spec d hday
  have hlater := later_date hdate (show 0 ≤ daysUntil d dayOf + 7 by omega)
  rw [← Int.add_assoc] at hlater
  exact hlater

/-! ## Dates and instants -/

/-- The date is the instant that `computeNextRunAt` gives. -/
theorem computeNextRunDate_eq {d t : Instant} {frequency : RecurringFrequency} {dayOf : ℤ}
    (h : computeNextRunDate d frequency dayOf = some t) : computeNextRunAt d frequency dayOf = t := by
  cases frequency with
  | weekly =>
    obtain ⟨t₁, h₁, h₂⟩ := Option.bind_eq_some_iff.1 h
    obtain ⟨rfl, -⟩ := timeClip_eq_some.1 h₁
    exact (timeClip_eq_some.1 h₂).1.symm
  | biweekly =>
    obtain ⟨t₁, h₁, h₂⟩ := Option.bind_eq_some_iff.1 h
    obtain ⟨rfl, -⟩ := timeClip_eq_some.1 h₁
    exact (timeClip_eq_some.1 h₂).1.symm
  | monthly =>
    obtain ⟨t₁, h₁, h⟩ := Option.bind_eq_some_iff.1 h
    obtain ⟨t₂, h₂, h⟩ := Option.bind_eq_some_iff.1 h
    obtain ⟨t₃, h₃, h₄⟩ := Option.bind_eq_some_iff.1 h
    obtain ⟨rfl, -⟩ := timeClip_eq_some.1 h₁
    obtain ⟨rfl, -⟩ := timeClip_eq_some.1 h₂
    obtain ⟨rfl, -⟩ := timeClip_eq_some.1 h₃
    exact (timeClip_eq_some.1 h₄).1.symm

/-- What a schedule computes is a date. -/
theorem timeClip_computeNextRunDate {d t : Instant} {frequency : RecurringFrequency} {dayOf : ℤ}
    (h : computeNextRunDate d frequency dayOf = some t) : timeClip t = some t := by
  have hclip : ∀ {u : Instant}, timeClip u = some t → timeClip t = some t := by
    intro u hu
    obtain ⟨rfl, hrange⟩ := timeClip_eq_some.1 hu
    exact hu
  cases frequency with
  | weekly =>
    obtain ⟨t₁, -, h⟩ := Option.bind_eq_some_iff.1 h
    exact hclip h
  | biweekly =>
    obtain ⟨t₁, -, h⟩ := Option.bind_eq_some_iff.1 h
    exact hclip h
  | monthly =>
    obtain ⟨t₁, -, h⟩ := Option.bind_eq_some_iff.1 h
    obtain ⟨t₂, -, h⟩ := Option.bind_eq_some_iff.1 h
    obtain ⟨t₃, -, h⟩ := Option.bind_eq_some_iff.1 h
    exact hclip h

end BankDemo.Recurring
