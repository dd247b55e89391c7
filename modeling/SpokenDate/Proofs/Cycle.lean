/-
The cycle of 400 years.

The rule for leap years looks at remainders that 400 years leave alone, so after 400 years the
calendar starts over.  Until then 146097 days go by, which are whole weeks.  So a step by 400 years,
which rebuilds a date from its parts, and one by 146097 days, which only counts, are the same step,
and no day of the month is too late for it.

* **`fixed_add_cycles`**: a day of the calendar comes back after a cycle;
* **`fields_add_cycles`**: the year, month and day that a day number reads a cycle later;
* **`addYears?_cycles_eq_some_iff`**: steps by cycles of years count days;
* **`addYears?_cycles`**: what this says about dates.
-/
import SpokenDate.Proofs.MonthStep

namespace SpokenDate

namespace Gregorian

variable {y z : Int}

/-! ### Years of one kind -/

theorem monthLength_congr (h : isLeap y = isLeap z) (month : Nat) :
    monthLength y month = monthLength z month := by
  rw [monthLength, monthLength, h]

/-- Nothing but the kind of the year matters to its months. -/
theorem daysBeforeMonth_congr (h : isLeap y = isLeap z) (month : Nat) :
    daysBeforeMonth y month = daysBeforeMonth z month := by
  induction month using daysBeforeMonth.induct with
  | case1 => rfl
  | case2 => rfl
  | case3 month ih => rw [daysBeforeMonth, daysBeforeMonth, ih, monthLength_congr h]

/-! ### Years of a cycle -/

theorem isLeap_add_cycles (year cycles : Int) : isLeap (year + 400 * cycles) = isLeap year := by
  have hfour : (year + 400 * cycles) % 4 = year % 4 := by omega
  have hhundred : (year + 400 * cycles) % 100 = year % 100 := by omega
  have hcycle : (year + 400 * cycles) % 400 = year % 400 := by omega
  simp only [isLeap, hfour, hhundred, hcycle]

/-- A cycle has 97 leap years. -/
theorem daysBeforeYear_add_cycles (year cycles : Int) :
    daysBeforeYear (year + 400 * cycles) = daysBeforeYear year + 146097 * cycles := by
  simp only [daysBeforeYear]
  omega

/-- **A day of the calendar comes back** after 146097 days. -/
theorem fixed_add_cycles (year cycles : Int) (month day : Nat) :
    fixed (year + 400 * cycles) month day = fixed year month day + 146097 * cycles := by
  rw [fixed, fixed, daysBeforeYear_add_cycles,
    daysBeforeMonth_congr (isLeap_add_cycles year cycles)]
  omega

/-! ### Days -/

/-- **What a day number reads** a cycle later is the same day of the same month. -/
theorem fields_add_cycles (n cycles : Int) :
    yearOf (n + 146097 * cycles) = yearOf n + 400 * cycles ∧
      monthOf (n + 146097 * cycles) = monthOf n ∧ dayOf (n + 146097 * cycles) = dayOf n := by
  have hmonth := monthOf_mem n
  have hday := dayOf_mem n
  rw [← monthLength_congr (isLeap_add_cycles _ cycles)] at hday
  have hfixed : n + 146097 * cycles = fixed (yearOf n + 400 * cycles) (monthOf n) (dayOf n) := by
    rw [fixed_add_cycles, fixed_fields]
  rw [hfixed]
  exact ⟨yearOf_fixed hmonth hday, monthOf_fixed hmonth hday, dayOf_fixed hmonth hday⟩

/-- A cycle has 4800 months. -/
theorem firstOfMonth_add_cycles (index cycles : Int) :
    firstOfMonth (index + 4800 * cycles) = firstOfMonth index + 146097 * cycles := by
  have hyear : (index + 4800 * cycles) / 12 = index / 12 + 400 * cycles := by omega
  have hmonth : (index + 4800 * cycles) % 12 = index % 12 := by omega
  rw [firstOfMonth, hyear, hmonth, fixed_add_cycles, firstOfMonth]

end Gregorian

namespace Date

open Gregorian

variable {d e : Date} {cycles : Int} {years days : Int64}

/-- What a date reads whose day number is a whole number of cycles away. -/
theorem fields_of_cycles (h : e.fixed = d.fixed + 146097 * cycles) :
    e.year = d.year + 400 * cycles ∧ e.month = d.month ∧ e.day = d.day ∧
      e.weekday = d.weekday := by
  obtain ⟨hyear, hmonth, hday⟩ := fields_add_cycles d.fixed cycles
  refine ⟨?_, ?_, ?_, ?_⟩
  · rw [year, h, hyear, year]
  · rw [month, h, hmonth, month]
  · rw [day, h, hday, day]
  · -- a cycle is a whole number of weeks
    have hd := d.cast_weekday
    have he := e.cast_weekday
    omega

/-- **A step by cycles of years counts days**, and where it leads is the day alone that has to lie in
the span, for the month that it is built from lies in the same year. -/
theorem addYears?_cycles_eq_some_iff (h : years.toInt = 400 * cycles) :
    d.addYears? years = some e ↔ e.fixed = d.fixed + 146097 * cycles := by
  have hindex : monthIndex d.fixed + 12 * years.toInt = monthIndex d.fixed + 4800 * cycles := by
    omega
  have hday : d.day = dayOf d.fixed := rfl
  have hfirst := firstOfMonth_monthIndex d.fixed
  rw [addYears?_eq_some_iff, hindex, supported_firstOfMonth_iff, firstOfMonth_add_cycles]
  constructor
  · rintro ⟨-, he⟩
    omega
  · intro he
    obtain ⟨hyear, -⟩ := fields_of_cycles he
    have htarget : (monthIndex d.fixed + 4800 * cycles) / 12 = e.year := by
      have hdiv : monthIndex d.fixed / 12 = d.year := monthIndex_div d.fixed
      omega
    rw [htarget]
    exact ⟨e.year_mem, by omega⟩

/-- **The calendar repeats every 400 years.**  A step by so many cycles of 400 years is one by as
many times 146097 days, also where either fails, and a date that it leads to has the month, the day
and the weekday of the date that it started from. -/
theorem addYears?_cycles (hyears : years.toInt = 400 * cycles)
    (hdays : days.toInt = 146097 * cycles) (d : Date) :
    d.addYears? years = d.addDays? days ∧
    ∀ e, d.addYears? years = some e →
      e.year = d.year + 400 * cycles ∧ e.month = d.month ∧ e.day = d.day ∧
        e.weekday = d.weekday := by
  constructor
  · refine Option.ext fun e => ?_
    rw [addYears?_cycles_eq_some_iff hyears, addDays?_eq_some_iff, hdays]
  · intro e he
    exact fields_of_cycles ((addYears?_cycles_eq_some_iff hyears).1 he)

/-- 29 February 2000, a Tuesday. -/
def leapDay2000 : Date := ⟨730179, by decide, by decide⟩

/-- 29 February of the year 0. -/
def leapDay0 : Date := ⟨-306, by decide, by decide⟩

/-- Five cycles before 2000 lies the year 0. -/
theorem addYears?_cycles_leapDay :
    (-2000 : Int64).toInt = 400 * (-5) ∧ (-730485 : Int64).toInt = 146097 * (-5) ∧
    leapDay2000.addYears? (-2000) = some leapDay0 ∧
    leapDay2000.addDays? (-730485) = some leapDay0 ∧
    leapDay0.month = leapDay2000.month ∧ leapDay0.day = leapDay2000.day ∧
    leapDay0.weekday = leapDay2000.weekday := by
  have hyears : (-2000 : Int64).toInt = 400 * (-5) := by decide
  have hdays : (-730485 : Int64).toInt = 146097 * (-5) := by decide
  have hcounted : leapDay2000.addDays? (-730485) = some leapDay0 := by decide
  obtain ⟨hsame, hfields⟩ := addYears?_cycles hyears hdays leapDay2000
  obtain ⟨-, hread⟩ := hfields leapDay0 (hsame.trans hcounted)
  exact ⟨hyears, hdays, hsame.trans hcounted, hcounted, hread⟩

end Date

end SpokenDate
