import Mathlib.Algebra.Group.Int.Defs
import Mathlib.Data.Int.Notation
import Mathlib.Data.List.Basic
import Mathlib.Data.Nat.Notation

/-!
# UTC dates as in JavaScript

The parts of `Date` that the source uses, on milliseconds since the epoch: the proleptic Gregorian
calendar of ECMAScript, counted in eras of 400 years that begin in March.

* `makeDay_civil`: the number of a day comes back from its year, month and day.
* `toISOString_injective`: different dates have different texts.
-/

namespace BankDemo.JsDate

/-- The milliseconds of a day. -/
def msPerDay : ℤ := 86400000

/-- The day of an instant, counted from the epoch. -/
def dayNumber (t : ℤ) : ℤ := t.fdiv msPerDay

/-- A day of the calendar. -/
structure Civil where
  year : ℤ
  month : ℤ
  day : ℤ
  deriving DecidableEq

/-- The calendar day with a given number. -/
def civil (number : ℤ) : Civil :=
  let z := number + 719468
  let era := z.fdiv 146097
  let dayOfEra := z - era * 146097
  let yearOfEra := (dayOfEra - dayOfEra / 1460 + dayOfEra / 36524 - dayOfEra / 146096) / 365
  let dayOfYear := dayOfEra - (365 * yearOfEra + yearOfEra / 4 - yearOfEra / 100)
  let shifted := (5 * dayOfYear + 2) / 153
  let month := if shifted < 10 then shifted + 3 else shifted - 9
  { year := yearOfEra + era * 400 + if month ≤ 2 then 1 else 0
    month
    day := dayOfYear - (153 * shifted + 2) / 5 + 1 }

/-- The number of the first of January. -/
def newYear (year : ℤ) : ℤ :=
  let y := year - 1
  let era := y.fdiv 400
  let yearOfEra := y - era * 400
  era * 146097 + (yearOfEra * 365 + yearOfEra / 4 - yearOfEra / 100 + 306) - 719468

/-- `d.getUTCFullYear()`. -/
def getUTCFullYear (t : ℤ) : ℤ := (civil (dayNumber t)).year

/-- `d.getUTCDay()`: the day of the week, from Sunday. -/
def getUTCDay (t : ℤ) : ℤ := (dayNumber t + 4) % 7

/-- `Date.UTC(year, 0, 1)`. Years of two digits are taken for those of the twentieth century. -/
def utcNewYear (year : ℤ) : ℤ :=
  newYear (if 0 ≤ year ∧ year ≤ 99 then 1900 + year else year) * msPerDay

/-- `d.getUTCMonth()`: the months are counted from 0. -/
def getUTCMonth (t : ℤ) : ℤ := (civil (dayNumber t)).month - 1

/-- `d.getUTCDate()`: the day of the month. -/
def getUTCDate (t : ℤ) : ℤ := (civil (dayNumber t)).day

/-- `MakeDay`: the number of a day of a month. Months and days outside the calendar carry over. -/
def makeDay (year month day : ℤ) : ℤ :=
  let monthOfYear := month.fmod 12
  let shifted := if monthOfYear < 2 then monthOfYear + 10 else monthOfYear - 2
  let y := year + month.fdiv 12 - if monthOfYear < 2 then 1 else 0
  let era := y.fdiv 400
  let yearOfEra := y - era * 400
  era * 146097 + (yearOfEra * 365 + yearOfEra / 4 - yearOfEra / 100) + (153 * shifted + 2) / 5 +
    day - 1 - 719468

/-- `Date.UTC(year, month, day)`. Years of two digits are taken for those of the twentieth
century. -/
def utc (year month day : ℤ) : ℤ :=
  makeDay (if 0 ≤ year ∧ year ≤ 99 then 1900 + year else year) month day * msPerDay

/-- `TimeClip`: a time value too far from the epoch is not that of a date. -/
def timeClip (t : ℤ) : Option ℤ := if t.natAbs ≤ 8640000000000000 then some t else none

/-- The midnight after an instant. -/
def nextMidnight (t : ℤ) : ℤ := (dayNumber t + 1) * msPerDay

/-- `n.toString().padStart(width, '0')`. -/
def pad (width : ℕ) (n : ℤ) : String :=
  let digits := toString n
  String.ofList (List.replicate (width - digits.length) '0') ++ digits

/-- The year of an ISO date: with a sign and six digits outside the years of four. -/
def isoYear (year : ℤ) : String :=
  if 0 ≤ year ∧ year ≤ 9999 then pad 4 year
  else (if year < 0 then "-" else "+") ++ pad 6 year.natAbs

/-- `d.toISOString().slice(0, 10)`. -/
def isoDay (t : ℤ) : String :=
  let c := civil (dayNumber t)
  String.ofList ((isoYear c.year ++ "-" ++ pad 2 c.month ++ "-" ++ pad 2 c.day).toList.take 10)

/-- The milliseconds since the day began. -/
def msInDay (t : ℤ) : ℤ := t - dayNumber t * msPerDay

/-- `d.setUTCDate(day)`. -/
def setUTCDate (t day : ℤ) : ℤ :=
  makeDay (getUTCFullYear t) (getUTCMonth t) day * msPerDay + msInDay t

/-- `d.setUTCMonth(month)`: the day of the month stays, and may carry over. -/
def setUTCMonth (t month : ℤ) : ℤ :=
  makeDay (getUTCFullYear t) month (getUTCDate t) * msPerDay + msInDay t

/-- `d.setUTCHours(hours, 0, 0, 0)`. -/
def setUTCHours (t hours : ℤ) : ℤ := dayNumber t * msPerDay + hours * 3600000

/-- `d.toISOString()`. -/
def toISOString (t : ℤ) : String :=
  let c := civil (dayNumber t)
  let ms := msInDay t
  isoYear c.year ++ "-" ++ pad 2 c.month ++ "-" ++ pad 2 c.day ++ "T" ++ pad 2 (ms / 3600000) ++
    ":" ++ pad 2 (ms / 60000 % 60) ++ ":" ++ pad 2 (ms / 1000 % 60) ++ "." ++ pad 3 (ms % 1000) ++
    "Z"

theorem length_pad (width : ℕ) (n : ℤ) : width ≤ (pad width n).length := by
  simp only [pad, String.length_append, String.length_ofList, List.length_replicate]
  omega

theorem length_isoYear (year : ℤ) : 4 ≤ (isoYear year).length := by
  rw [isoYear]
  split
  · exact length_pad 4 year
  · have h := length_pad 6 year.natAbs
    rw [String.length_append]
    omega

/-- A date in the ISO format takes 24 characters, and more when its year takes more than four. -/
theorem length_toISOString (t : ℤ) : 24 ≤ (toISOString t).length := by
  have hyear := length_isoYear (civil (dayNumber t)).year
  have hmonth := length_pad 2 (civil (dayNumber t)).month
  have hday := length_pad 2 (civil (dayNumber t)).day
  have hhour := length_pad 2 (msInDay t / 3600000)
  have hminute := length_pad 2 (msInDay t / 60000 % 60)
  have hsecond := length_pad 2 (msInDay t / 1000 % 60)
  have hms := length_pad 3 (msInDay t % 1000)
  have hmark : "-".length = 1 ∧ "T".length = 1 ∧ ":".length = 1 ∧ ".".length = 1 ∧
      "Z".length = 1 := by decide
  simp only [toISOString, String.length_append, hmark]
  omega

example : toISOString 1775037600000 = "2026-04-01T10:00:00.000Z" := by decide +kernel

/-! ## Days and their numbers -/

/-- The year that a day of an era is in, as `civil` finds it. -/
def yearOfEra (dayOfEra : ℤ) : ℤ :=
  (dayOfEra - dayOfEra / 1460 + dayOfEra / 36524 - dayOfEra / 146096) / 365

/-- The first day of a year of an era. -/
def yearStart (year : ℤ) : ℤ := 365 * year + year / 4 - year / 100

theorem yearOfEra_mono {z z' : ℤ} (h : z ≤ z') : yearOfEra z ≤ yearOfEra z' := by
  have hdays : z - z / 1460 ≤ z' - z' / 1460 := by omega
  have hcenturies : z / 36524 ≤ z' / 36524 := by omega
  -- an era is four centuries
  have hera : ∀ x : ℤ, x / 146096 = x / 36524 / 4 := by omega
  refine Int.ediv_le_ediv (by omega) ?_
  rw [hera, hera]
  omega

/-- The first and the last day of every year are found to be in it. -/
theorem yearOfEra_ends : ∀ y < 400, yearOfEra (yearStart (y : ℕ)) = y ∧
    yearOfEra (yearStart (y + 1) - 1) = y := by
  decide +kernel

theorem yearOfEra_range {z : ℤ} (hz : 0 ≤ z) (hz' : z ≤ 146096) :
    0 ≤ yearOfEra z ∧ yearOfEra z ≤ 399 := by
  simp only [yearOfEra]
  omega

/-- Every day of an era is in the year found for it. -/
theorem yearStart_le {z : ℤ} (hz : 0 ≤ z) (hz' : z ≤ 146096) :
    yearStart (yearOfEra z) ≤ z ∧ z ≤ yearStart (yearOfEra z) + 365 := by
  obtain ⟨hlo, hhi⟩ := yearOfEra_range hz hz'
  obtain ⟨y, hy⟩ := Int.eq_ofNat_of_zero_le hlo
  have hstart : yearStart y ≤ z := by
    by_contra hlt
    cases y with
    | zero =>
      simp [yearStart] at hlt
      omega
    | succ y =>
      have hends := (yearOfEra_ends y (by omega)).2
      push_cast at hlt hy
      have hmono : yearOfEra z ≤ yearOfEra (yearStart (y + 1) - 1) := yearOfEra_mono (by omega)
      omega
  have hend : z ≤ yearStart y + 365 := by
    by_contra hlt
    by_cases hlast : y + 1 < 400
    · have hends := (yearOfEra_ends (y + 1) hlast).1
      push_cast at hends
      have hstep : yearStart (y + 1) ≤ yearStart y + 366 := by
        simp only [yearStart]
        omega
      have hmono : yearOfEra (yearStart (y + 1)) ≤ yearOfEra z := yearOfEra_mono (by omega)
      omega
    · obtain rfl : y = 399 := by omega
      have hall : yearStart (399 : ℕ) + 365 = 146096 := by decide +kernel
      omega
  rw [hy]
  exact ⟨hstart, hend⟩

/-- A day by its era, its year of the era and its day of the year, which begins in March. -/
structure Parts (n era year day : ℤ) : Prop where
  number : n = era * 146097 + yearStart year + day - 719468
  year_nonneg : 0 ≤ year
  year_le : year ≤ 399
  day_nonneg : 0 ≤ day
  day_le : day ≤ 365

/-- The calendar day by its parts. -/
def civilOf (era year day : ℤ) : Civil :=
  let shifted := (5 * day + 2) / 153
  let month := if shifted < 10 then shifted + 3 else shifted - 9
  { year := year + era * 400 + if month ≤ 2 then 1 else 0
    month
    day := day - (153 * shifted + 2) / 5 + 1 }

theorem civil_parts (n : ℤ) :
    ∃ era year day, Parts n era year day ∧ civil n = civilOf era year day := by
  have hera : 0 ≤ n + 719468 - (n + 719468).fdiv 146097 * 146097 ∧
      n + 719468 - (n + 719468).fdiv 146097 * 146097 ≤ 146096 := by
    rw [Int.fdiv_eq_ediv_of_nonneg _ (by omega)]
    omega
  obtain ⟨hlo, hhi⟩ := yearOfEra_range hera.1 hera.2
  obtain ⟨hstart, hend⟩ := yearStart_le hera.1 hera.2
  exact ⟨_, _, _, ⟨by omega, hlo, hhi, Int.sub_nonneg.2 hstart, by omega⟩, rfl⟩

theorem civil_range (n : ℤ) : 1 ≤ (civil n).month ∧ (civil n).month ≤ 12 ∧ 1 ≤ (civil n).day ∧
    (civil n).day ≤ 31 := by
  obtain ⟨era, year, day, hparts, hcivil⟩ := civil_parts n
  have hlo := hparts.day_nonneg
  have hhi := hparts.day_le
  rw [hcivil]
  simp only [civilOf]
  split <;> omega

/-- The number of a day comes back from its year, month and day. -/
theorem makeDay_civil (n : ℤ) : makeDay (civil n).year ((civil n).month - 1) (civil n).day = n := by
  obtain ⟨era, y, d, hparts, hcivil⟩ := civil_parts n
  obtain ⟨hn, hlo, hhi, hd, hd'⟩ := hparts
  have hm : 0 ≤ (5 * d + 2) / 153 ∧ (5 * d + 2) / 153 ≤ 11 := by omega
  have hmonth : ∀ k : ℤ, 0 ≤ k → k ≤ 11 → k.fmod 12 = k ∧ k.fdiv 12 = 0 := by
    intro k hk hk'
    rw [Int.fmod_eq_emod_of_nonneg _ (by omega), Int.fdiv_eq_ediv_of_nonneg _ (by omega)]
    omega
  have hback : (y + era * 400).fdiv 400 = era := by
    rw [Int.fdiv_eq_ediv_of_nonneg _ (by omega)]
    omega
  rw [hcivil]
  simp only [civilOf, yearStart] at hn ⊢
  generalize hmp : (5 * d + 2) / 153 = m at *
  by_cases hm10 : m < 10
  · obtain ⟨hmod, hdiv⟩ := hmonth (m + 3 - 1) (by omega) (by omega)
    simp only [makeDay, hm10, if_true, hmod, hdiv, if_neg (show ¬ m + 3 ≤ 2 by omega),
      if_neg (show ¬ m + 3 - 1 < 2 by omega), Int.add_zero, Int.sub_zero, hback, Int.add_sub_cancel,
      show m + 3 - 1 - 2 = m by omega]
    omega
  · obtain ⟨hmod, hdiv⟩ := hmonth (m - 9 - 1) (by omega) (by omega)
    simp only [makeDay, hm10, if_false, hmod, hdiv, if_pos (show m - 9 ≤ 2 by omega),
      if_pos (show m - 9 - 1 < 2 by omega), Int.add_zero, Int.add_sub_cancel, hback,
      show m - 9 - 1 + 10 = m by omega]
    omega

theorem makeDay_add_day (year month day k : ℤ) :
    makeDay year month (day + k) = makeDay year month day + k := by
  simp only [makeDay]
  omega

/-- The same day of the same month in a later year. -/
theorem makeDay_add_years (year month day : ℤ) {k : ℤ} (hk : 0 ≤ k) :
    makeDay year month day + 365 * k ≤ makeDay (year + k) month day := by
  simp only [makeDay]
  rw [Int.fdiv_eq_ediv_of_nonneg (_ - _) (by omega), Int.fdiv_eq_ediv_of_nonneg (_ - _) (by omega)]
  omega

theorem makeDay_today (t : ℤ) :
    makeDay (getUTCFullYear t) (getUTCMonth t) (getUTCDate t) = dayNumber t :=
  makeDay_civil (dayNumber t)

/-- Outside the years of two digits, the day after the day of an instant begins at the next
midnight. -/
theorem utc_tomorrow {t : ℤ} (hyear : ¬ (0 ≤ getUTCFullYear t ∧ getUTCFullYear t ≤ 99)) :
    utc (getUTCFullYear t) (getUTCMonth t) (getUTCDate t + 1) = nextMidnight t := by
  rw [utc, if_neg hyear, makeDay_add_day, makeDay_today]
  rfl

/-- In the years of two digits, it is taken for one nineteen hundred years later. -/
theorem nextMidnight_le_utc {t : ℤ} (hyear : 0 ≤ getUTCFullYear t ∧ getUTCFullYear t ≤ 99) :
    nextMidnight t ≤ utc (getUTCFullYear t) (getUTCMonth t) (getUTCDate t + 1) := by
  have hlater := makeDay_add_years (getUTCFullYear t) (getUTCMonth t) (getUTCDate t)
    (show (0 : ℤ) ≤ 1900 by omega)
  rw [makeDay_today] at hlater
  rw [utc, if_pos hyear, makeDay_add_day, Int.add_comm 1900, nextMidnight, msPerDay]
  omega

/-- The days of the twentieth century are dates. -/
theorem timeClip_utc {t : ℤ} (hyear : 0 ≤ getUTCFullYear t ∧ getUTCFullYear t ≤ 99) :
    timeClip (utc (getUTCFullYear t) (getUTCMonth t) (getUTCDate t + 1)) =
      some (utc (getUTCFullYear t) (getUTCMonth t) (getUTCDate t + 1)) := by
  have hrange := civil_range (dayNumber t)
  have hmonth : 0 ≤ getUTCMonth t ∧ getUTCMonth t ≤ 11 := by
    simp only [getUTCMonth]
    omega
  have hday : 1 ≤ getUTCDate t ∧ getUTCDate t ≤ 31 := hrange.2.2
  rw [timeClip, if_pos]
  simp only [utc, if_pos hyear, makeDay, msPerDay]
  rw [Int.fdiv_eq_ediv_of_nonneg _ (by omega), Int.fdiv_eq_ediv_of_nonneg _ (by omega),
    Int.fmod_eq_emod_of_nonneg _ (by omega)]
  omega

theorem timeClip_nextMidnight {t : ℤ} (hyear : 0 ≤ getUTCFullYear t ∧ getUTCFullYear t ≤ 99) :
    timeClip (nextMidnight t) = some (nextMidnight t) := by
  have hrange := civil_range (dayNumber t)
  have hmonth : 0 ≤ getUTCMonth t ∧ getUTCMonth t ≤ 11 := by
    simp only [getUTCMonth]
    omega
  have hday : 1 ≤ getUTCDate t ∧ getUTCDate t ≤ 31 := hrange.2.2
  rw [timeClip, if_pos]
  rw [nextMidnight, ← makeDay_today]
  simp only [makeDay, msPerDay]
  rw [Int.fdiv_eq_ediv_of_nonneg _ (by omega), Int.fdiv_eq_ediv_of_nonneg _ (by omega),
    Int.fmod_eq_emod_of_nonneg _ (by omega)]
  omega

/-! ## The ISO format tells dates apart -/

theorem toList_pad (width : ℕ) {n : ℤ} (hn : 0 ≤ n) : (pad width n).toList =
    List.replicate (width - (Nat.toDigits 10 n.toNat).length) '0' ++ Nat.toDigits 10 n.toNat := by
  have hdigits : (toString n).toList = Nat.toDigits 10 n.toNat := by
    rw [Int.toString_eq_repr, Int.repr_eq_if, if_pos hn, Nat.toList_repr]
  have hlength : (toString n).length = (Nat.toDigits 10 n.toNat).length := by
    rw [← String.length_toList, hdigits]
  rw [pad, String.toList_append, String.toList_ofList, hdigits, hlength]

/-- The number is read back from its text. -/
theorem ofDigitChars_pad (width : ℕ) {n : ℤ} (hn : 0 ≤ n) :
    Nat.ofDigitChars 10 (pad width n).toList 0 = n.toNat := by
  rw [toList_pad width hn, Nat.ofDigitChars_append, Nat.ofDigitChars_replicate_zero,
    Nat.mul_zero, Nat.ofDigitChars_ten_toDigits]

theorem pad_injective {width : ℕ} {m n : ℤ} (hm : 0 ≤ m) (hn : 0 ≤ n)
    (h : pad width m = pad width n) : m = n := by
  have hnat : m.toNat = n.toNat := by
    rw [← ofDigitChars_pad width hm, ← ofDigitChars_pad width hn, h]
  omega

theorem length_pad_eq {width : ℕ} {n : ℤ} (hwidth : 0 < width) (hn : 0 ≤ n)
    (hlt : n < 10 ^ width) : (pad width n).toList.length = width := by
  have hdigits : (Nat.toDigits 10 n.toNat).length ≤ width := by
    rw [Nat.length_toDigits_le_iff (by omega) hwidth]
    have hcast : ((10 ^ width : ℕ) : ℤ) = 10 ^ width := by push_cast; rfl
    omega
  rw [toList_pad width hn, List.length_append, List.length_replicate]
  omega

/-- Two numbers of a fixed width at the end of equal texts. -/
theorem pad_append_inj {width : ℕ} {m n : ℤ} {l l' : List Char} (hwidth : 0 < width)
    (hm : 0 ≤ m ∧ m < 10 ^ width) (hn : 0 ≤ n ∧ n < 10 ^ width)
    (h : l ++ (pad width m).toList = l' ++ (pad width n).toList) : l = l' ∧ m = n := by
  have hlength : (pad width m).toList.length = (pad width n).toList.length := by
    rw [length_pad_eq hwidth hm.1 hm.2, length_pad_eq hwidth hn.1 hn.2]
  obtain ⟨hl, hpad⟩ := List.append_inj' h hlength
  exact ⟨hl, pad_injective hm.1 hn.1 (String.toList_injective hpad)⟩

theorem isDigit_of_mem_pad {width : ℕ} {n : ℤ} (hn : 0 ≤ n) {c : Char}
    (hc : c ∈ (pad width n).toList) : c.isDigit = true := by
  rw [toList_pad width hn, List.mem_append] at hc
  rcases hc with hc | hc
  · rw [List.eq_of_mem_replicate hc]
    rfl
  · exact Nat.isDigit_of_mem_toDigits (by omega) (by omega) hc

/-- The sign of a year. -/
def yearSign (year : ℤ) : Char := if year < 0 then '-' else '+'

theorem isDigit_yearSign (year : ℤ) : (yearSign year).isDigit = false := by
  unfold yearSign
  split <;> rfl

theorem toList_isoYear {year : ℤ} (hlong : ¬ (0 ≤ year ∧ year ≤ 9999)) :
    (isoYear year).toList = yearSign year :: (pad 6 year.natAbs).toList := by
  rw [isoYear, if_neg hlong, String.toList_append, yearSign]
  split <;> rfl

theorem isoYear_ne {y y' : ℤ} (hshort : 0 ≤ y ∧ y ≤ 9999) (hlong : ¬ (0 ≤ y' ∧ y' ≤ 9999)) :
    isoYear y ≠ isoYear y' := by
  intro h
  have hmem : yearSign y' ∈ (isoYear y).toList := by
    rw [h, toList_isoYear hlong]
    exact List.mem_cons_self
  rw [isoYear, if_pos hshort] at hmem
  have hdigit := isDigit_of_mem_pad hshort.1 hmem
  rw [isDigit_yearSign] at hdigit
  cases hdigit

theorem isoYear_injective {y y' : ℤ} (h : isoYear y = isoYear y') : y = y' := by
  by_cases hy : 0 ≤ y ∧ y ≤ 9999
  · by_cases hy' : 0 ≤ y' ∧ y' ≤ 9999
    · rw [isoYear, isoYear, if_pos hy, if_pos hy'] at h
      exact pad_injective hy.1 hy'.1 h
    · exact absurd h (isoYear_ne hy hy')
  · by_cases hy' : 0 ≤ y' ∧ y' ≤ 9999
    · exact absurd h.symm (isoYear_ne hy' hy)
    · have hlist := congrArg String.toList h
      rw [toList_isoYear hy, toList_isoYear hy'] at hlist
      obtain ⟨hsign, hpad⟩ := List.cons.inj hlist
      have habs := pad_injective (by omega) (by omega) (String.toList_injective hpad)
      unfold yearSign at hsign
      split at hsign <;> split at hsign
      · omega
      · exact absurd hsign (by decide)
      · exact absurd hsign (by decide)
      · omega

theorem dayNumber_injective {m n : ℤ} (hyear : (civil m).year = (civil n).year)
    (hmonth : (civil m).month = (civil n).month) (hday : (civil m).day = (civil n).day) : m = n := by
  rw [← makeDay_civil m, ← makeDay_civil n, hyear, hmonth, hday]

theorem msInDay_range (t : ℤ) : 0 ≤ msInDay t ∧ msInDay t < 86400000 := by
  rw [msInDay, dayNumber, msPerDay, Int.fdiv_eq_ediv_of_nonneg _ (by omega)]
  omega

theorem lt_nextMidnight (t : ℤ) : t < nextMidnight t := by
  have hday := msInDay_range t
  simp only [msInDay, nextMidnight, msPerDay] at hday ⊢
  omega

/-- **Dates have different texts**. -/
theorem toISOString_injective {t t' : ℤ} (h : toISOString t = toISOString t') : t = t' := by
  have hlist := congrArg String.toList h
  simp only [toISOString, String.toList_append] at hlist
  obtain ⟨hmonth₁, hmonth₂, hday₁, hday₂⟩ := civil_range (dayNumber t)
  obtain ⟨hmonth₁', hmonth₂', hday₁', hday₂'⟩ := civil_range (dayNumber t')
  obtain ⟨hms₁, hms₂⟩ := msInDay_range t
  obtain ⟨hms₁', hms₂'⟩ := msInDay_range t'
  -- from the end of the text to its beginning
  obtain ⟨hlist, hms⟩ := pad_append_inj (by omega) (by omega) (by omega)
    (List.append_cancel_right hlist)
  obtain ⟨hlist, hsecond⟩ := pad_append_inj (by omega) (by omega) (by omega)
    (List.append_cancel_right hlist)
  obtain ⟨hlist, hminute⟩ := pad_append_inj (by omega) (by omega) (by omega)
    (List.append_cancel_right hlist)
  obtain ⟨hlist, hhour⟩ := pad_append_inj (by omega) (by omega) (by omega)
    (List.append_cancel_right hlist)
  obtain ⟨hlist, hday⟩ := pad_append_inj (by omega) (by omega) (by omega)
    (List.append_cancel_right hlist)
  obtain ⟨hlist, hmonth⟩ := pad_append_inj (by omega) (by omega) (by omega)
    (List.append_cancel_right hlist)
  have hyear := isoYear_injective (String.toList_injective (List.append_cancel_right hlist))
  have hnumber := dayNumber_injective hyear hmonth hday
  simp only [msInDay] at hms hsecond hminute hhour hms₁ hms₁' hms₂ hms₂'
  rw [hnumber] at hms hsecond hminute hhour hms₁ hms₂
  omega

end BankDemo.JsDate
