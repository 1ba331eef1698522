import BankDemo.Recurring.Dates

/-!
# The dates of a schedule

`setUTCMonth` is called before the day is cut to the length of the month, so from the end of a month it
may land in the month after the next: a schedule for the 31st of January is next on the 31st of March.

* `monthly_iff`: from which dates a monthly schedule is next in the next month, and comes to every month
  after.
* `progress_iff`: from which dates a schedule is moved on to a later date, of the week asked for.
-/

namespace BankDemo.Recurring

open Transfers Goals JsDate

/-! ## Every month -/

/-- The date is at nine in the month after that of `d`, on the day asked for or the last. -/
structure InNextMonth (d : Instant) (dayOf : ℤ) (next : Instant) : Prop where
  month : monthIndex next = monthIndex d + 1
  day : getUTCDate next = min dayOf (monthDays (monthIndex d + 1))
  time : msInDay next = 9 * 3600000

def HitsNextMonth (d : Instant) (dayOf : ℤ) : Prop :=
  ∃ next, computeNextRunDate d .monthly dayOf = some next ∧ InNextMonth d dayOf next

/-- The dates of a schedule, each computed from the one before. -/
def occurrences (d : Instant) (frequency : RecurringFrequency) (dayOf : ℤ) : ℕ → Option Instant
  | 0 => some d
  | n + 1 => (occurrences d frequency dayOf n).bind fun t => computeNextRunDate t frequency dayOf

/-- Every month after that of `d`, as long as the calendar has whole months, is visited once. -/
def VisitsEveryMonth (d : Instant) (dayOf : ℤ) : Prop :=
  ∀ k, monthIndex d < k → k ≤ lastMonth →
    ∃! n, ∃ t, occurrences d .monthly dayOf n = some t ∧ monthIndex t = k

section Monthly

variable {d : Instant} {dayOf : ℤ}

theorem monthly_parts (hdate : timeClip d = some d) (hday : 1 ≤ dayOf) {t : Instant}
    (h : computeNextRunDate d .monthly dayOf = some t) :
    monthIndex d < lastMonth ∧ monthIndex t = landing d ∧
      getUTCDate t = min dayOf (lastDayOf (landing d)) ∧ msInDay t = 9 * 3600000 := by
  rw [monthly_date hdate (by omega)] at h
  split at h
  · rename_i hk
    cases h
    obtain ⟨hmonth, hdate⟩ := landed_parts (k := landing d) hday
    exact ⟨hk, hmonth, hdate, (nineOn_parts _).2⟩
  · cases h

theorem hitsNextMonth_iff (hdate : timeClip d = some d) (hday : 1 ≤ dayOf) :
    HitsNextMonth d dayOf ↔ monthIndex d < lastMonth ∧
      getUTCDate d ≤ monthDays (monthIndex d + 1) ∧ ¬ (monthIndex d = 0 ∧ 29 ≤ dayOf) := by
  have hlast := lastDayOf_eq (monthIndex d + 1)
  have hfebruary : monthIndex d = 0 → monthDays (monthIndex d + 1) = 29 := by
    intro h0
    rw [h0]
    decide
  constructor
  · rintro ⟨next, hnext, hmonth, hdayOf, -⟩
    obtain ⟨hk, hlands, hlandsOn, -⟩ := monthly_parts hdate hday hnext
    have hlanding : landing d = monthIndex d + 1 := hlands.symm.trans hmonth
    have hfits : getUTCDate d ≤ monthDays (monthIndex d + 1) := by
      by_contra hlong
      rw [landing, if_neg hlong] at hlanding
      omega
    refine ⟨hk, hfits, fun hzero => ?_⟩
    have hdays := hfebruary hzero.1
    rw [hlanding, hlast, if_pos (by omega)] at hlandsOn
    omega
  · rintro ⟨hk, hfits, hzero⟩
    have hlanding : landing d = monthIndex d + 1 := if_pos hfits
    have hnext := monthly_date hdate (show 0 ≤ dayOf by omega)
    rw [if_pos hk] at hnext
    obtain ⟨-, hlands, hlandsOn, hnine⟩ := monthly_parts hdate hday hnext
    refine ⟨_, hnext, hlands.trans hlanding, ?_, hnine⟩
    rw [hlandsOn, hlanding, hlast]
    split
    · have hdays := hfebruary (by omega)
      omega
    · rfl

theorem occurrences_date (hdate : timeClip d = some d) {frequency : RecurringFrequency} {n : ℕ}
    {t : Instant} (h : occurrences d frequency dayOf n = some t) : timeClip t = some t := by
  cases n with
  | zero =>
    cases h
    exact hdate
  | succ n =>
    obtain ⟨t₁, -, h⟩ := Option.bind_eq_some_iff.1 h
    exact timeClip_computeNextRunDate h

theorem occurrences_succ {frequency : RecurringFrequency} {n : ℕ} {t : Instant}
    (h : occurrences d frequency dayOf n = some t) :
    occurrences d frequency dayOf (n + 1) = computeNextRunDate t frequency dayOf := by
  rw [occurrences, h, Option.bind_some]

/-- The months of the dates increase. -/
theorem monthIndex_lt (hdate : timeClip d = some d) (hday : 1 ≤ dayOf) {m n : ℕ} {t t' : Instant}
    (hm : occurrences d .monthly dayOf m = some t) (hn : occurrences d .monthly dayOf n = some t')
    (hlt : m < n) : monthIndex t < monthIndex t' := by
  induction n generalizing t' with
  | zero => omega
  | succ n ih =>
    obtain ⟨t₁, h₁, hnext⟩ := Option.bind_eq_some_iff.1 hn
    obtain ⟨-, hlands, -, -⟩ := monthly_parts (occurrences_date hdate h₁) hday hnext
    have hlater := landing_range t₁
    rcases Nat.lt_or_eq_of_le (Nat.le_of_lt_succ hlt) with hbefore | rfl
    · have := ih h₁ hbefore
      omega
    · rw [hm] at h₁
      cases h₁
      omega

/-- Where no month is too short for the day that the month before it has, each is visited. -/
theorem visitsEveryMonth_of (hdate : timeClip d = some d) (hday : 1 ≤ dayOf)
    (hfits : getUTCDate d ≤ monthDays (monthIndex d + 1))
    (hmonths : ∀ k, monthIndex d < k → k < lastMonth →
      min dayOf (monthDays k) ≤ monthDays (k + 1)) : VisitsEveryMonth d dayOf := by
  have hreach : ∀ n : ℕ, monthIndex d + n ≤ lastMonth →
      ∃ t, occurrences d .monthly dayOf n = some t ∧ monthIndex t = monthIndex d + n ∧
        (monthIndex t < lastMonth → getUTCDate t ≤ monthDays (monthIndex t + 1)) := by
    intro n hn
    induction n with
    | zero => exact ⟨d, rfl, (Int.add_zero _).symm, fun _ => hfits⟩
    | succ n ih =>
      push_cast at hn
      obtain ⟨t, ht, hmonth, hfit⟩ := ih (by omega)
      have hnext := monthly_date (occurrences_date hdate ht) (show 0 ≤ dayOf by omega)
      rw [if_pos (by omega)] at hnext
      obtain ⟨-, hlands, hlandsOn, -⟩ := monthly_parts (occurrences_date hdate ht) hday hnext
      have hlanding : landing t = monthIndex t + 1 := if_pos (hfit (by omega))
      rw [← occurrences_succ ht] at hnext
      rw [hlanding] at hnext hlands hlandsOn
      refine ⟨_, hnext, by push_cast; omega, fun hbefore => ?_⟩
      have hrange := lastDayOf_range (monthIndex t + 1)
      have hk := hmonths (monthIndex t + 1) (by omega) (by omega)
      rw [hlands, hlandsOn]
      omega
  intro k hk hk'
  obtain ⟨n, rfl⟩ : ∃ n : ℕ, k = monthIndex d + n := ⟨(k - monthIndex d).toNat, by omega⟩
  obtain ⟨t, ht, hmonth, -⟩ := hreach n hk'
  refine ⟨n, ⟨t, ht, hmonth⟩, ?_⟩
  rintro m ⟨t', ht', hmonth'⟩
  rcases Nat.lt_trichotomy m n with hlt | heq | hgt
  · have := monthIndex_lt hdate hday ht' ht hlt
    omega
  · exact heq
  · have := monthIndex_lt hdate hday ht ht' hgt
    omega

/-- A month that is too short for the day of the month before it is not visited. -/
theorem fits_of_visits (hdate : timeClip d = some d) (hday : 1 ≤ dayOf)
    (hvisits : VisitsEveryMonth d dayOf) {k : ℤ} (hk : monthIndex d < k) (hk' : k < lastMonth) :
    min dayOf (monthDays k) ≤ monthDays (k + 1) := by
  obtain ⟨n, ⟨t, ht, hmonth⟩, -⟩ := hvisits k hk hk'.le
  obtain ⟨m, ⟨t', ht', hmonth'⟩, -⟩ := hvisits (k + 1) (by omega) (by omega)
  have hlater : n < m := by
    rcases Nat.lt_trichotomy n m with hlt | rfl | hgt
    · exact hlt
    · rw [ht] at ht'
      cases ht'
      omega
    · have := monthIndex_lt hdate hday ht' ht hgt
      omega
  have hnext := monthly_date (occurrences_date hdate ht) (show 0 ≤ dayOf by omega)
  rw [if_pos (by omega)] at hnext
  obtain ⟨-, hlands, -, -⟩ := monthly_parts (occurrences_date hdate ht) hday hnext
  rw [← occurrences_succ ht] at hnext
  have hrange := landing_range t
  have hlanding : landing t = k + 1 := by
    rcases Nat.lt_or_eq_of_le hlater with hlt | rfl
    · have := monthIndex_lt hdate hday hnext ht' hlt
      omega
    · rw [hnext] at ht'
      cases ht'
      omega
  have hfits : getUTCDate t ≤ monthDays (k + 1) := by
    by_contra hlong
    rw [landing, hmonth, if_neg hlong] at hlanding
    omega
  -- the date is not the first, since its month is a later one
  cases n with
  | zero =>
    cases ht
    omega
  | succ n =>
    obtain ⟨t₁, ht₁, hthis⟩ := Option.bind_eq_some_iff.1 ht
    obtain ⟨-, hlands₁, hlandsOn₁, -⟩ := monthly_parts (occurrences_date hdate ht₁) hday hthis
    rw [← hlands₁, hmonth, lastDayOf_eq] at hlandsOn₁
    split at hlandsOn₁
    · rename_i hfebruary
      rw [hfebruary]
      have hdays : monthDays 1 = 29 ∧ monthDays (1 + 1) = 31 := by decide
      omega
    · omega

/-- **When monthly schedules hit every month**: the day of the date they start from must be one of the
next month, and in no month may the day asked for be missing from the month after. -/
theorem monthly_iff (hdate : timeClip d = some d) (hday : 1 ≤ dayOf) :
    HitsNextMonth d dayOf ∧ VisitsEveryMonth d dayOf ↔
      monthIndex d < lastMonth ∧ getUTCDate d ≤ monthDays (monthIndex d + 1) ∧
        ¬ (monthIndex d = 0 ∧ 29 ≤ dayOf) ∧
        ∀ k, monthIndex d < k → k < lastMonth → min dayOf (monthDays k) ≤ monthDays (k + 1) := by
  rw [hitsNextMonth_iff hdate hday]
  constructor
  · rintro ⟨⟨hk, hfits, hzero⟩, hvisits⟩
    exact ⟨hk, hfits, hzero, fun k => fits_of_visits hdate hday hvisits⟩
  · rintro ⟨hk, hfits, hzero, hmonths⟩
    exact ⟨⟨hk, hfits, hzero⟩, visitsEveryMonth_of hdate hday hfits hmonths⟩

/-- The fifteenth is in every month. -/
theorem fifteenth_monthly :
    HitsNextMonth 1768478400000 15 ∧ VisitsEveryMonth 1768478400000 15 := by
  refine (monthly_iff (by decide) (by decide)).2 ⟨by decide, by decide, by decide, ?_⟩
  intro k _ _
  have hrange := monthDays_range (k + 1)
  omega

/-- From noon of January 31, 2026, a schedule for the 31st is next on March 31 at nine. -/
theorem january_skips_february :
    computeNextRunDate 1769860800000 .monthly 31 = some 1774947600000 ∧
      ¬ (HitsNextMonth 1769860800000 31 ∧ VisitsEveryMonth 1769860800000 31) := by
  have hnext : computeNextRunDate 1769860800000 .monthly 31 = some 1774947600000 := by decide
  refine ⟨hnext, ?_⟩
  rintro ⟨⟨next, hdate, hmonth, -⟩, -⟩
  rw [hnext] at hdate
  cases hdate
  exact absurd hmonth (by decide)

end Monthly

/-! ## Progress -/

/-- The date is later than `d`; by the week it is on the weekday asked for, in the week that follows
or, every other week, in the one after that. -/
structure Progresses (d : Instant) (frequency : RecurringFrequency) (dayOf : ℤ) (next : Instant) :
    Prop where
  later : d < next
  weekly : frequency = .weekly → getUTCDay next = dayOf % 7 ∧ dayNumber d + 1 ≤ dayNumber next ∧
    dayNumber next ≤ dayNumber d + 7
  biweekly : frequency = .biweekly → getUTCDay next = dayOf % 7 ∧
    dayNumber d + 8 ≤ dayNumber next ∧ dayNumber next ≤ dayNumber d + 14

/-- A schedule that a scan moved on is not among what a scan at the same time reads. -/
def NotDueAgain (now : Instant) (frequency : RecurringFrequency) (dayOf : ℤ) : Prop :=
  ∀ (env : Env) (me : ℕ) (c c' : ScanCall) (s : Schedules) (id : Uuid) (r : RecurringTransfer),
    c.now = now → c'.now = now → s.recurring.lookup id = some r → r.frequency = frequency →
      r.dayOf = dayOf →
        ((runDueNow env me c).run s).2.recurring.lookup id ≠ some r →
          ∀ row, (id, row) ∉ c'.due ((runDueNow env me c).run s).2.recurring

/-- A schedule makes progress from `d`. -/
def MakesProgress (d : Instant) (frequency : RecurringFrequency) (dayOf : ℤ) : Prop :=
  (∃ next, computeNextRunDate d frequency dayOf = some next ∧
    Progresses d frequency dayOf next) ∧ NotDueAgain d frequency dayOf

/-- The date is in the calendar, and not on the last day of this month at nine, gone by. -/
def HasNext (d : Instant) (frequency : RecurringFrequency) (dayOf : ℤ) : Prop :=
  match frequency with
  | .weekly => dayNumber d + ((dayOf - getUTCDay d - 1) % 7 + 1) < 100000000
  | .biweekly => dayNumber d + ((dayOf - getUTCDay d - 1) % 7 + 8) < 100000000
  | .monthly => monthIndex d < lastMonth ∧
      ¬ (dayOf = 0 ∧ getUTCDate d = monthDays (monthIndex d) ∧
        getUTCDate d ≤ monthDays (monthIndex d + 1) ∧ 9 * 3600000 ≤ msInDay d)

theorem daysUntil_eq (d : Instant) {dayOf : ℤ} (hday : 0 ≤ dayOf) :
    daysUntil d dayOf = (dayOf - getUTCDay d - 1) % 7 + 1 := by
  have hweekday : 0 ≤ getUTCDay d ∧ getUTCDay d ≤ 6 := by
    simp only [getUTCDay]
    omega
  simp only [daysUntil]
  rw [Int.tmod_eq_emod_of_nonneg (by omega)]
  split <;> omega

theorem lt_nineOn {d day : ℤ} (h : dayNumber d < day) : d < nineOn day := by
  have hms := msInDay_range d
  simp only [msInDay, msPerDay] at hms
  simp only [nineOn, msPerDay]
  omega

/-- Nine o'clock of the same day. -/
theorem lt_nineOn_today (d : ℤ) : d < nineOn (dayNumber d) ↔ msInDay d < 9 * 3600000 := by
  simp only [nineOn, msInDay]
  omega

/-- The day before the first of the month where `setUTCMonth` lands. -/
theorem monthly_later (d : Instant) {dayOf : ℤ} (hday : 0 ≤ dayOf) :
    d < nineOn (monthDay (landing d) (min dayOf (lastDayOf (landing d)))) ↔
      ¬ (dayOf = 0 ∧ getUTCDate d = monthDays (monthIndex d) ∧
        getUTCDate d ≤ monthDays (monthIndex d + 1) ∧ 9 * 3600000 ≤ msInDay d) := by
  have hrange := landing_range d
  have hlast := lastDayOf_range (landing d)
  have hends := getUTCDate_le d
  have htoday := monthDay_today d
  rcases Int.lt_or_eq_of_le hday with hpos | hzero
  · have hlater : dayNumber d < monthDay (landing d) (min dayOf (lastDayOf (landing d))) := by
      rw [← htoday]
      exact monthDay_lt hrange.1 hends (by omega)
    simp only [lt_nineOn hlater, true_iff]
    omega
  · rw [← hzero, Int.min_eq_left (by omega)]
    have hcarry := monthDay_carry (landing d - 1) 0
    rw [Int.add_zero, Int.sub_add_cancel] at hcarry
    rw [← hcarry]
    by_cases hfits : getUTCDate d ≤ monthDays (monthIndex d + 1)
    · have hlanding : landing d - 1 = monthIndex d := by
        rw [landing, if_pos hfits]
        omega
      rw [hlanding]
      rcases Int.lt_or_eq_of_le hends with hbefore | hend
      · have hmove : monthDay (monthIndex d) (monthDays (monthIndex d)) =
            dayNumber d + (monthDays (monthIndex d) - getUTCDate d) := by
          rw [← htoday, ← monthDay_add, show getUTCDate d +
            (monthDays (monthIndex d) - getUTCDate d) = monthDays (monthIndex d) by omega]
        simp only [lt_nineOn (show dayNumber d < monthDay (monthIndex d)
          (monthDays (monthIndex d)) by omega), true_iff]
        omega
      · rw [← hend, htoday, lt_nineOn_today]
        omega
    · have hlanding : landing d - 1 = monthIndex d + 1 := by
        rw [landing, if_neg hfits]
        omega
      have hlater : dayNumber d < monthDay (landing d - 1) (monthDays (landing d - 1)) := by
        have hdays := monthDays_range (landing d - 1)
        rw [← htoday]
        exact monthDay_lt (by omega) hends (by omega)
      simp only [lt_nineOn hlater, true_iff]
      omega

theorem progresses_iff {d : Instant} (hdate : timeClip d = some d)
    (frequency : RecurringFrequency) {dayOf : ℤ} (hday : 0 ≤ dayOf) :
    (∃ next, computeNextRunDate d frequency dayOf = some next ∧
      Progresses d frequency dayOf next) ↔ HasNext d frequency dayOf := by
  obtain ⟨hlo, hhi, hweekday⟩ := daysUntil_spec d hday
  have hdays := daysUntil_eq d hday
  cases frequency with
  | weekly =>
    simp only [weekly_date hdate hday, HasNext, ← hdays]
    split
    · rename_i hin
      obtain ⟨hnumber, -⟩ := nineOn_parts (dayNumber d + daysUntil d dayOf)
      refine iff_of_true ⟨_, rfl, lt_nineOn (by omega), fun _ => ?_, by simp⟩ hin
      rw [getUTCDay, hnumber]
      omega
    · rename_i hout
      simp [hout]
  | biweekly =>
    rw [biweekly_date hdate hday]
    simp only [HasNext]
    rw [show (dayOf - getUTCDay d - 1) % 7 + 8 = daysUntil d dayOf + 7 by omega]
    split
    · rename_i hin
      obtain ⟨hnumber, -⟩ := nineOn_parts (dayNumber d + (daysUntil d dayOf + 7))
      refine iff_of_true ⟨_, rfl, lt_nineOn (by omega), by simp, fun _ => ?_⟩ hin
      rw [getUTCDay, hnumber]
      omega
    · rename_i hout
      simp [hout]
  | monthly =>
    simp only [monthly_date hdate hday, HasNext, ← monthly_later d hday]
    split
    · rename_i hk
      refine ⟨?_, fun h => ⟨_, rfl, h.2, by simp, by simp⟩⟩
      rintro ⟨next, hnext, hlater, -, -⟩
      cases hnext
      exact ⟨hk, hlater⟩
    · rename_i hk
      simp [hk]

/-! ### Scans -/

/-- Of the schedules that changed, each was moved on from one of `due`. -/
def Moved (c : ScanCall) (due : List (Uuid × RecurringTransfer)) (s s' : Schedules) : Prop :=
  ∀ id, s'.recurring.lookup id = s.recurring.lookup id ∨ ∃ r row, (id, r) ∈ due ∧
    s'.recurring.lookup id = some row ∧ row.nextRunAt = computeNextRunAt c.now r.frequency r.dayOf

theorem Moved.refl (c : ScanCall) (due : List (Uuid × RecurringTransfer)) (s : Schedules) :
    Moved c due s s := fun _ => .inl rfl

theorem Moved.trans {c : ScanCall} {due : List (Uuid × RecurringTransfer)} {s₁ s₂ s₃ : Schedules}
    (h₁ : Moved c due s₁ s₂) (h₂ : Moved c due s₂ s₃) : Moved c due s₁ s₃ := by
  intro id
  rcases h₂ id with hsame | hmoved
  · rw [hsame]
    exact h₁ id
  · exact .inr hmoved

theorem runRow_each {env : Env} {me : ℕ} {c : ScanCall} {due : List (Uuid × RecurringTransfer)}
    {id : Uuid} {r : RecurringTransfer} (hdue : (id, r) ∈ due) :
    (runRow env me c id r).Each (Moved c due) := by
  refine Prog.each_bind (Prog.each_zoom _ fun w s => Moved.refl c due _) fun _ => ?_
  refine Prog.each_attempt (Moved.refl c due) fun s r' hbody => ?_
  intro x
  unfold updateRow at hbody
  split at hbody
  · cases hbody
  · rename_i row hrow
    cases hbody
    by_cases hx : x = id
    · subst hx
      exact .inr ⟨r, c.reschedule r row, hdue, AList.lookup_insert _, rfl⟩
    · exact .inl (AList.lookup_insert_ne hx)

theorem runRows_each {env : Env} {me : ℕ} {c : ScanCall} {all : List (Uuid × RecurringTransfer)}
    (due : List (Uuid × RecurringTransfer)) (hdue : ∀ e ∈ due, e ∈ all) (count : ℕ) :
    (runRows env me c due count).Each (Moved c all) := by
  induction due generalizing count with
  | nil => exact Prog.each_pure _
  | cons e due ih =>
    have hrest : ∀ e ∈ due, e ∈ all := fun e he => hdue e (List.mem_cons_of_mem _ he)
    refine Prog.each_bind (Prog.each_tryCatch (Prog.each_bind
      (runRow_each (hdue _ List.mem_cons_self)) fun _ => Prog.each_pure _) fun _ =>
        Prog.each_pure _) fun count => ih hrest count

/-- A scan alone moves on only schedules that it read. -/
theorem runDueNow_moves (env : Env) (me : ℕ) (c : ScanCall) (s : Schedules) :
    Moved c (c.due s.recurring) s ((runDueNow env me c).run s).2 :=
  (runRows_each (c.due s.recurring) (fun _ he => he) 0).run (Moved.refl c _) Moved.trans s

/-- What a scan reads is in the table, and due. -/
theorem mem_due {c : ScanCall} {T : Table Uuid RecurringTransfer} {id : Uuid}
    {r : RecurringTransfer} (h : (id, r) ∈ c.due T) :
    T.lookup id = some r ∧ r.nextRunAt ≤ c.now := by
  have hmem := (c.order_perm _).mem_iff.1 (List.mem_of_mem_take h)
  simp only [List.mem_map, List.mem_filter, decide_eq_true_eq] at hmem
  obtain ⟨e, ⟨he, -, hnow⟩, heq⟩ := hmem
  cases heq
  exact ⟨Table.mem_entries_iff.1 he, hnow⟩

theorem notDueAgain {d next : Instant} {frequency : RecurringFrequency} {dayOf : ℤ}
    (hnext : computeNextRunDate d frequency dayOf = some next) (hlater : d < next) :
    NotDueAgain d frequency dayOf := by
  intro env me c c' s id r hnow hnow' hr hfrequency hdayOf hmoved row hmem
  obtain ⟨hrow, hdue⟩ := mem_due hmem
  rcases runDueNow_moves env me c s id with hsame | ⟨r₁, row₁, hread, hrow₁, hat⟩
  · exact hmoved (hsame.trans hr)
  · obtain ⟨hr₁, -⟩ := mem_due hread
    rw [hr] at hr₁
    cases hr₁
    rw [hrow] at hrow₁
    cases hrow₁
    rw [hnow, hfrequency, hdayOf, computeNextRunDate_eq hnext] at hat
    rw [hat, hnow'] at hdue
    exact absurd hdue (Int.not_le.2 hlater)

/-- **When schedules make progress**: everywhere in the calendar, but for the day 0 of a month. From
the last day of a month that is the day before the next, and it may be past nine by then. -/
theorem progress_iff {d : Instant} (hdate : timeClip d = some d) (frequency : RecurringFrequency)
    {dayOf : ℤ} (hday : 0 ≤ dayOf) :
    MakesProgress d frequency dayOf ↔ HasNext d frequency dayOf := by
  rw [MakesProgress, progresses_iff hdate frequency hday]
  refine ⟨And.left, fun h => ⟨h, ?_⟩⟩
  obtain ⟨next, hnext, hprogress⟩ := (progresses_iff hdate frequency hday).2 h
  exact notDueAgain hnext hprogress.later

theorem friday_progress : MakesProgress 1779796800000 .weekly 5 := by
  refine (progress_iff (by decide) .weekly (by decide)).2 ?_
  simp only [HasNext]
  decide

/-- From noon of April 30, 2026, a schedule for day 0 is next at nine of the same day. -/
theorem april_goes_back : computeNextRunDate 1777550400000 .monthly 0 = some 1777539600000 ∧
    ¬ MakesProgress 1777550400000 .monthly 0 := by
  have hnext : computeNextRunDate 1777550400000 .monthly 0 = some 1777539600000 := by decide
  refine ⟨hnext, ?_⟩
  rintro ⟨⟨next, hdate, hlater, -, -⟩, -⟩
  rw [hnext] at hdate
  cases hdate
  exact absurd hlater (by decide)

end BankDemo.Recurring
