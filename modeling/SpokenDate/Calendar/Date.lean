/-
Dates: the days of a bounded span of the Gregorian calendar.

A date is a day number inside the supported span, and equality and order of dates are
those of day numbers.  Year, month, day and weekday are read off the number.

The type stands for the date type of a calendar library and takes over what is documented
of it: the span from 1 January -262143 to 31 December 262142; that a year, month and day
make a date exactly where the calendar and the span have that day; that adding days counts
day by day, and leads nowhere past the ends of the span; the order by time; the year,
month, day and weekday that a date reads; and that every date has a midnight.

* **`ofFixed?_eq_some_iff`**: every day number of the span is a date and no other is;
* **`mem_span_iff`**: the span is made of whole years;
* **`ofYmd?_eq_some_iff`**: a year, month and day name a date exactly when the date
  reads that year, month and day;
* **`exists_ofYmd?`**: every day of the calendar in a supported year is a date;
* **`month_mem`**, **`day_mem`**: every date reads a month from 1 to 12 and a day that
  this month has.
-/
import SpokenDate.Calendar.Gregorian

namespace SpokenDate

open Gregorian

/-- The first year of the supported span. -/
def firstYear : Int := -262143

/-- The last year of the supported span. -/
def lastYear : Int := 262142

/-- The day number of the first supported day. -/
def firstDay : Int := fixed firstYear 1 1

/-- The day number of the last supported day. -/
def lastDay : Int := fixed lastYear 12 31

/-- A day of the supported span. -/
structure Date where
  /-- The day number, 1 being 1 January of year 1. -/
  fixed : Int
  firstDay_le : firstDay ≤ fixed
  le_lastDay : fixed ≤ lastDay
  deriving DecidableEq, Repr

/-- The date and time of day of an answer, as plain numbers. -/
structure DateTime where
  year : Int
  month : Nat
  day : Nat
  hour : Nat
  minute : Nat
  second : Nat
  deriving DecidableEq, Repr

namespace Date

/-- The date with day number `n`, if the span holds it. -/
def ofFixed? (n : Int) : Option Date :=
  if h : firstDay ≤ n ∧ n ≤ lastDay then some ⟨n, h.1, h.2⟩ else none

/-- The date with this year, month and day, if the calendar and the span hold it. -/
def ofYmd? (year : Int) (month day : Nat) : Option Date :=
  if 1 ≤ month ∧ month ≤ 12 ∧ 1 ≤ day ∧ day ≤ monthLength year month then
    ofFixed? (Gregorian.fixed year month day)
  else none

def year (d : Date) : Int := yearOf d.fixed

/-- The month, January being 1. -/
def month (d : Date) : Nat := monthOf d.fixed

/-- The day of the month, from 1 on. -/
def day (d : Date) : Nat := dayOf d.fixed

/-- The weekday, Sunday being 0. -/
def weekday (d : Date) : Nat := (d.fixed % 7).toNat

/-- The first moment of the date. -/
def atMidnight (d : Date) : DateTime :=
  { year := d.year, month := d.month, day := d.day, hour := 0, minute := 0, second := 0 }

/-! ### Equality and order -/

variable {d e : Date} {n y : Int} {m k : Nat}

theorem ext (h : d.fixed = e.fixed) : d = e := by
  cases d
  cases e
  simp_all

theorem fixed_inj : d.fixed = e.fixed ↔ d = e :=
  ⟨ext, congrArg _⟩

/-- Earlier dates are smaller. -/
instance : LE Date := ⟨fun d e => d.fixed ≤ e.fixed⟩

instance : LT Date := ⟨fun d e => d.fixed < e.fixed⟩

theorem le_iff : d ≤ e ↔ d.fixed ≤ e.fixed := Iff.rfl

theorem lt_iff : d < e ↔ d.fixed < e.fixed := Iff.rfl

instance (d e : Date) : Decidable (d ≤ e) := decidable_of_iff _ le_iff.symm

instance (d e : Date) : Decidable (d < e) := decidable_of_iff _ lt_iff.symm

/-! ### The supported span -/

theorem ofFixed?_eq_some_iff : ofFixed? n = some d ↔ d.fixed = n := by
  rw [ofFixed?]
  split
  · rw [Option.some_inj, ← fixed_inj]
    exact eq_comm
  · rename_i h
    simp only [reduceCtorEq, false_iff]
    rintro rfl
    exact h ⟨d.firstDay_le, d.le_lastDay⟩

theorem ofFixed?_eq_none_iff : ofFixed? n = none ↔ n < firstDay ∨ lastDay < n := by
  rw [ofFixed?]
  split <;> simp only [reduceCtorEq, false_iff, true_iff] <;> omega

@[simp] theorem ofFixed?_fixed (d : Date) : ofFixed? d.fixed = some d :=
  ofFixed?_eq_some_iff.2 rfl

/-- The span holds exactly the days of its years. -/
theorem mem_span_iff :
    firstDay ≤ n ∧ n ≤ lastDay ↔ firstYear ≤ yearOf n ∧ yearOf n ≤ lastYear := by
  obtain ⟨h₁, h₂⟩ := daysBeforeYear_yearOf n
  have hfirst : firstDay = daysBeforeYear firstYear + 1 := by decide
  have hlast : lastDay = daysBeforeYear (lastYear + 1) := by decide
  rw [hfirst, hlast]
  constructor
  · rintro ⟨h₃, h₄⟩
    constructor
    · -- a year before the first ends before the first begins
      refine Int.not_lt.1 fun h => ?_
      have := daysBeforeYear_le (show yearOf n + 1 ≤ firstYear by omega)
      omega
    · refine Int.not_lt.1 fun h => ?_
      have := daysBeforeYear_le (show lastYear + 1 ≤ yearOf n by omega)
      omega
  · rintro ⟨h₃, h₄⟩
    have := daysBeforeYear_le h₃
    have := daysBeforeYear_le (show yearOf n + 1 ≤ lastYear + 1 by omega)
    omega

theorem year_mem (d : Date) : firstYear ≤ d.year ∧ d.year ≤ lastYear :=
  mem_span_iff.1 ⟨d.firstDay_le, d.le_lastDay⟩

/-! ### Year, month, day and weekday -/

theorem month_mem (d : Date) : 1 ≤ d.month ∧ d.month ≤ 12 := monthOf_mem _

theorem day_mem (d : Date) : 1 ≤ d.day ∧ d.day ≤ monthLength d.year d.month := dayOf_mem _

theorem weekday_lt (d : Date) : d.weekday < 7 := by
  simp only [weekday]
  omega

/-- The weekday is the day number modulo seven. -/
theorem cast_weekday (d : Date) : (d.weekday : Int) = d.fixed % 7 := by
  simp only [weekday]
  omega

/-- The year, month and day of a date lead back to its day number. -/
theorem fixed_ymd (d : Date) : Gregorian.fixed d.year d.month d.day = d.fixed :=
  fixed_fields _

/-- **Year, month and day name a date exactly when the date reads them.** -/
theorem ofYmd?_eq_some_iff :
    ofYmd? y m k = some d ↔ d.year = y ∧ d.month = m ∧ d.day = k := by
  rw [ofYmd?]
  constructor
  · intro h
    split at h
    · rename_i hm
      rw [ofFixed?_eq_some_iff] at h
      simp only [Date.year, Date.month, Date.day, h]
      exact ⟨yearOf_fixed ⟨hm.1, hm.2.1⟩ hm.2.2, monthOf_fixed ⟨hm.1, hm.2.1⟩ hm.2.2,
        dayOf_fixed ⟨hm.1, hm.2.1⟩ hm.2.2⟩
    · cases h
  · rintro ⟨rfl, rfl, rfl⟩
    rw [if_pos ⟨d.month_mem.1, d.month_mem.2, d.day_mem.1, d.day_mem.2⟩, fixed_ymd,
      ofFixed?_fixed]

/-- Every day of the calendar in a supported year is a date. -/
theorem exists_ofYmd? (hy : firstYear ≤ y ∧ y ≤ lastYear) (hm : 1 ≤ m ∧ m ≤ 12)
    (hk : 1 ≤ k ∧ k ≤ monthLength y m) : ∃ d, ofYmd? y m k = some d := by
  have hspan : firstDay ≤ Gregorian.fixed y m k ∧ Gregorian.fixed y m k ≤ lastDay := by
    rw [mem_span_iff, yearOf_fixed hm hk]
    exact hy
  refine ⟨⟨Gregorian.fixed y m k, hspan.1, hspan.2⟩, ?_⟩
  rw [ofYmd?, if_pos ⟨hm.1, hm.2, hk.1, hk.2⟩]
  exact ofFixed?_eq_some_iff.2 rfl

@[simp] theorem ofYmd?_ymd (d : Date) : ofYmd? d.year d.month d.day = some d :=
  ofYmd?_eq_some_iff.2 ⟨rfl, rfl, rfl⟩

end Date

end SpokenDate
