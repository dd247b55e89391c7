/-
Leap years, by their rule and by the calendar.

The rule looks at three remainders of the year, and dates are built from day numbers.  Both say the
same of every year: where the rule holds the year has a 29 February, which is plausible and is found
where it is asked for, and the year is a day longer than others.

* **`isLeap_iff_words`**: the rule on words, whose remainders have the sign of the year;
* **`exists_leapDay_iff_days`**, **`exists_leapDay_iff`**: the years that have a 29 February, by
  the count of days and by the rule;
* **`addDays?_newYear_iff`**: the days from one new year to the next;
* **`isLeap_iff_calendar`**: all of this, for every supported year.
-/
import SpokenDate.Proofs.DayByDay
import SpokenDate.Proofs.RealDay

namespace SpokenDate

open Gregorian CalendarPhrase

variable {year : Int32} {first next : Date} {n : Int64} {y : Int}

/-! ### The rule -/

/-- Whether a remainder is zero does not hang on the way in which it is rounded. -/
theorem mod_eq_zero_iff_emod (a b : Int32) : a % b = 0 ↔ a.toInt % b.toInt = 0 := by
  rw [← Int32.toInt_inj, Int32.toInt_mod, show (0 : Int32).toInt = 0 from rfl,
    ← Int.dvd_iff_tmod_eq_zero, Int.dvd_iff_emod_eq_zero]

theorem isLeap_iff_words (year : Int32) :
    isLeap year.toInt = true ↔ (year % 4 = 0 ∧ year % 100 ≠ 0) ∨ year % 400 = 0 := by
  have hfour : (4 : Int32).toInt = 4 := rfl
  have hhundred : (100 : Int32).toInt = 100 := rfl
  have hcycle : (400 : Int32).toInt = 400 := rfl
  simp only [isLeap_iff, ne_eq, mod_eq_zero_iff_emod, hfour, hhundred, hcycle]

/-! ### The leap day -/

/-- A year has a 29 February exactly where it has 366 days, by the count of days before a year. -/
theorem exists_leapDay_iff_days (h : firstYear ≤ y ∧ y ≤ lastYear) :
    CalendarPhrase.Exists y 2 29 ↔ daysBeforeYear (y + 1) = daysBeforeYear y + 366 := by
  have hfebruary := monthLength_february y
  -- of the three quotients the first grows by one at most
  have hlength : daysBeforeYear (y + 1) ≤ daysBeforeYear y + 366 := by
    simp only [daysBeforeYear]
    omega
  rw [CalendarPhrase.Exists]
  omega

/-- **Leap years are the years that have a 29 February.** -/
theorem exists_leapDay_iff (h : firstYear ≤ y ∧ y ≤ lastYear) :
    CalendarPhrase.Exists y 2 29 ↔ isLeap y = true := by
  rw [exists_leapDay_iff_days h, daysBeforeYear_succ]
  cases isLeap y <;> simp

theorem isPlausible_leapDay_iff (h : firstYear ≤ year.toInt ∧ year.toInt ≤ lastYear) :
    isPlausible ⟨some 2, some 29, some (.full year)⟩ = true ↔ isLeap year.toInt = true := by
  rw [isPlausible_iff (by decide)]
  simp only [yearOr?, Year.value?, Option.some_inj, exists_eq_left']
  exact exists_leapDay_iff h

/-- The leap day is found in a leap year, and the day after 28 February in others. -/
theorem resolve?_leapDay_of_year (h : firstYear ≤ year.toInt ∧ year.toInt ≤ lastYear)
    (today : Date) :
    ∃ d, resolve? ⟨some 2, some 29, some (.full year)⟩ today = some d ∧
      d.ymd = if isLeap year.toInt = true then ⟨year.toInt, 2, 29⟩ else ⟨year.toInt, 3, 1⟩ := by
  show ∃ d, inYear? year 2 29 = some d ∧ _
  by_cases hleap : isLeap year.toInt = true
  · have hexists : CalendarPhrase.Exists year.toInt (2 : UInt32).toNat (29 : UInt32).toNat :=
      (exists_leapDay_iff h).2 hleap
    obtain ⟨d, hd, hyear, hmonth, hday⟩ := inYear?_of_exists hexists
    rw [if_pos hleap]
    exact ⟨d, hd, Ymd.ext hyear hmonth hday⟩
  · obtain ⟨d, hd, hyear, hmonth, hday⟩ := inYear?_leapDay h (Bool.eq_false_iff.2 hleap)
    rw [if_neg hleap]
    exact ⟨d, hd, Ymd.ext hyear hmonth hday⟩

/-! ### The length of a year -/

theorem exists_newYear (h : firstYear ≤ y ∧ y ≤ lastYear) : ∃ d : Date, d.ymd = ⟨y, 1, 1⟩ := by
  have hreal := Ymd.isReal_first y (show 1 ≤ 1 ∧ 1 ≤ 12 by omega)
  obtain ⟨d, hd⟩ := Date.exists_ofYmd? h hreal.month hreal.day
  exact ⟨d, Ymd.date?_eq_some_iff.1 hd⟩

theorem fixed_newYear {d : Date} (h : d.ymd = ⟨y, 1, 1⟩) : d.fixed = daysBeforeYear y + 1 := by
  rw [← Ymd.number_ymd, h]
  simp only [Ymd.number, fixed, daysBeforeMonth]
  omega

/-- **From one new year to the next** there are 366 days in a leap year, and 365 in others. -/
theorem addDays?_newYear_iff (hfirst : first.ymd = ⟨y, 1, 1⟩) (hnext : next.ymd = ⟨y + 1, 1, 1⟩) :
    first.addDays? n = some next ↔ n.toInt = if isLeap y then 366 else 365 := by
  rw [Date.addDays?_eq_some_iff, fixed_newYear hfirst, fixed_newYear hnext, daysBeforeYear_succ]
  omega

/-- **The rule for leap years is that of the calendar.**  Where it holds, and only there, 29 February
is plausible, is found as such instead of as 1 March, and the next new year is 366 days away instead
of 365. -/
theorem isLeap_iff_calendar (h : firstYear ≤ year.toInt ∧ year.toInt ≤ lastYear) :
    (isLeap year.toInt = true ↔ (year % 4 = 0 ∧ year % 100 ≠ 0) ∨ year % 400 = 0) ∧
    (isLeap year.toInt = true ↔ isPlausible ⟨some 2, some 29, some (.full year)⟩ = true) ∧
    (∀ today, ∃ d, resolve? ⟨some 2, some 29, some (.full year)⟩ today = some d ∧
      (isLeap year.toInt = true ↔ d.ymd = ⟨year.toInt, 2, 29⟩) ∧
      (isLeap year.toInt = false ↔ d.ymd = ⟨year.toInt, 3, 1⟩)) ∧
    (year.toInt + 1 ≤ lastYear → ∃ first next : Date,
      first.ymd = ⟨year.toInt, 1, 1⟩ ∧ next.ymd = ⟨year.toInt + 1, 1, 1⟩ ∧
      (isLeap year.toInt = true ↔ first.addDays? 366 = some next) ∧
      (isLeap year.toInt = false ↔ first.addDays? 365 = some next)) := by
  refine ⟨isLeap_iff_words year, (isPlausible_leapDay_iff h).symm, ?_, ?_⟩
  · intro today
    obtain ⟨d, hd, hymd⟩ := resolve?_leapDay_of_year h today
    refine ⟨d, hd, ?_⟩
    rw [hymd]
    cases isLeap year.toInt <;> simp
  · intro hlast
    obtain ⟨first, hfirst⟩ := exists_newYear h
    obtain ⟨next, hnext⟩ := exists_newYear (y := year.toInt + 1) (by omega)
    have hlong : (366 : Int64).toInt = 366 := rfl
    have hshort : (365 : Int64).toInt = 365 := rfl
    refine ⟨first, next, hfirst, hnext, ?_⟩
    rw [addDays?_newYear_iff hfirst hnext, addDays?_newYear_iff hfirst hnext, hlong, hshort]
    cases isLeap year.toInt <;> simp

/-- The year -100 is a century that 400 does not divide. -/
theorem isLeap_iff_calendar_century :
    (firstYear ≤ (-100 : Int32).toInt ∧ (-100 : Int32).toInt ≤ lastYear) ∧
    isLeap (-100) = false ∧
    ¬isPlausible ⟨some 2, some 29, some (.full (-100))⟩ = true ∧
    (∀ today, ∃ d, resolve? ⟨some 2, some 29, some (.full (-100))⟩ today = some d ∧
      d.ymd = ⟨-100, 3, 1⟩) ∧
    ∃ first next : Date, first.ymd = ⟨-100, 1, 1⟩ ∧ next.ymd = ⟨-99, 1, 1⟩ ∧
      first.addDays? 365 = some next := by
  have hspan : firstYear ≤ (-100 : Int32).toInt ∧ (-100 : Int32).toInt ≤ lastYear := by decide
  have hcommon : isLeap (-100 : Int32).toInt = false := by decide
  obtain ⟨-, hplausible, hfound, hlength⟩ := isLeap_iff_calendar hspan
  refine ⟨hspan, hcommon, ?_, ?_, ?_⟩
  · rw [← hplausible, hcommon]
    exact Bool.false_ne_true
  · intro today
    obtain ⟨d, hd, -, hmarch⟩ := hfound today
    exact ⟨d, hd, hmarch.1 hcommon⟩
  · obtain ⟨first, next, hfirst, hnext, -, hdays⟩ := hlength (by decide)
    exact ⟨first, next, hfirst, hnext, hdays.1 hcommon⟩

end SpokenDate
