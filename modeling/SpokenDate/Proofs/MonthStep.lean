/-
Months numbered through the years, and the steps that go by them.

Month 0 is January of year 0, so a step by months adds to the number of a month.  A step
goes to the first of the target month and from there on by the day of the month that it
started from, which is how days past the end of a short month come to lie in the next.

* **`firstOfMonth_succ`**: months follow each other without a gap;
* **`rolled?_eq_some_iff_firstOfMonth`**: rolling over, on month numbers;
* **`addMonths?_eq_some_iff`**: where a step by months leads, over all counts;
* **`addYears?_eq_some_iff`**: a step by years is one by twelve times as many months, also
  where no word holds that many.
-/
import Mathlib.Algebra.Group.Int.Defs
import SpokenDate.Phrase.Calendar

namespace SpokenDate

/-- The span holds day `n`. -/
def Supported (n : Int) : Prop := firstDay ≤ n ∧ n ≤ lastDay

theorem Date.supported (d : Date) : Supported d.fixed := ⟨d.firstDay_le, d.le_lastDay⟩

namespace Gregorian

/-- The number of the month that holds day `n`. -/
def monthIndex (n : Int) : Int := 12 * yearOf n + monthOf n - 1

/-- The first day of a month. -/
def firstOfMonth (index : Int) : Int := fixed (index / 12) (index % 12 + 1).toNat 1

theorem monthIndex_div (n : Int) : monthIndex n / 12 = yearOf n := by
  have := monthOf_mem n
  simp only [monthIndex]
  omega

theorem monthIndex_mod (n : Int) : (monthIndex n % 12 + 1).toNat = monthOf n := by
  have := monthOf_mem n
  simp only [monthIndex]
  omega

/-- A day lies as far behind the first of its month as its day of the month says. -/
theorem firstOfMonth_monthIndex (n : Int) : firstOfMonth (monthIndex n) = n - (dayOf n - 1) := by
  have h := fixed_fields n
  rw [firstOfMonth, monthIndex_div, monthIndex_mod]
  simp only [fixed] at h ⊢
  omega

theorem yearOf_firstOfMonth (index : Int) : yearOf (firstOfMonth index) = index / 12 := by
  have hlength := monthLength_pos (index / 12) (index % 12 + 1).toNat
  exact yearOf_fixed (by omega) (by omega)

/-- A month begins where the one before it ends. -/
theorem firstOfMonth_succ (index : Int) :
    firstOfMonth (index + 1) =
      firstOfMonth index + monthLength (index / 12) (index % 12 + 1).toNat := by
  simp only [firstOfMonth, fixed]
  by_cases hlast : index % 12 = 11
  · -- after December the year is over
    have hyear := daysBeforeYear_succ (index / 12)
    have hmonths := daysBeforeMonth_thirteen (index / 12)
    rw [daysBeforeMonth_succ _ (by omega)] at hmonths
    rw [show (index + 1) / 12 = index / 12 + 1 by omega,
      show (index + 1) % 12 = 0 by omega, hlast]
    simp only [show ((11 : Int) + 1).toNat = 12 from rfl, show ((0 : Int) + 1).toNat = 1 from rfl,
      daysBeforeMonth]
    simp only [daysBeforeMonth] at hmonths
    split at hmonths <;> simp_all <;> omega
  · rw [show (index + 1) / 12 = index / 12 by omega,
      show ((index + 1) % 12 + 1).toNat = (index % 12 + 1).toNat + 1 by omega,
      daysBeforeMonth_succ _ (by omega)]
    omega

/-- Months are at least 28 days long. -/
theorem firstOfMonth_add_le (index : Int) (n : Nat) :
    firstOfMonth index + 28 * n ≤ firstOfMonth (index + n) := by
  induction n with
  | zero => simp
  | succ n ih =>
    have hlength := monthLength_pos ((index + n) / 12) ((index + n) % 12 + 1).toNat
    rw [show index + (n + 1 : Nat) = index + n + 1 by omega, firstOfMonth_succ]
    omega

/-- A month comes back a year later, after 365 days or after 366. -/
theorem firstOfMonth_add_year_le (index : Int) :
    firstOfMonth index + 365 ≤ firstOfMonth (index + 12) := by
  have hyear := daysBeforeYear_succ (index / 12)
  have hmonth := daysBeforeMonth_le_add (index / 12) (index / 12 + 1) (index % 12 + 1).toNat
  simp only [firstOfMonth, fixed, show (index + 12) / 12 = index / 12 + 1 by omega,
    show (index + 12) % 12 = index % 12 by omega]
  cases hleap : isLeap (index / 12) <;> rw [hleap] at hyear hmonth <;>
    simp only [Bool.toNat_true, Bool.toNat_false, if_true, if_false, Bool.false_eq_true]
      at hyear hmonth <;> omega

theorem firstOfMonth_add_years_le (index : Int) (years : Nat) :
    firstOfMonth index + 365 * years ≤ firstOfMonth (index + 12 * years) := by
  induction years with
  | zero => simp
  | succ years ih =>
    have hyear := firstOfMonth_add_year_le (index + 12 * years)
    rw [show index + 12 * (years + 1 : Nat) = index + 12 * years + 12 by omega]
    omega

/-- The number of a month is that of its year and its name. -/
theorem firstOfMonth_ymd {year : Int} {month : Nat} (h : 1 ≤ month ∧ month ≤ 12) :
    firstOfMonth (12 * year + month - 1) = fixed year month 1 := by
  rw [firstOfMonth, show (12 * year + month - 1) / 12 = year by omega,
    show ((12 * year + month - 1) % 12 + 1).toNat = month by omega]

/-- The span holds a month from its first day on, or not at all. -/
theorem supported_firstOfMonth_iff {index : Int} :
    Supported (firstOfMonth index) ↔ firstYear ≤ index / 12 ∧ index / 12 ≤ lastYear := by
  rw [Supported, Date.mem_span_iff, yearOf_firstOfMonth]

end Gregorian

namespace Date

open Gregorian

variable {d e : Date} {n : Int64}

theorem rolled?_eq_some_iff_firstOfMonth {year : Int32} {month₀ day : Int64} :
    rolled? year month₀ day = some d ↔
      Supported (firstOfMonth (12 * year.toInt + month₀.toInt)) ∧
        d.fixed = firstOfMonth (12 * year.toInt + month₀.toInt) + (day.toInt - 1) := by
  rw [supported_firstOfMonth_iff]
  exact rolled?_eq_some_iff rfl

theorem toInt_month (d : Date) : (Int64.ofNat (d.month - 1)).toInt = d.month - 1 := by
  have := d.month_mem
  rw [Int64.toInt_ofNat_of_lt (by omega)]
  omega

theorem day_le (d : Date) : d.day ≤ 31 := Nat.le_trans d.day_mem.2 (monthLength_le _ _)

theorem toInt_day (d : Date) : (Int64.ofNat d.day).toInt = d.day := by
  have := d.day_le
  exact Int64.toInt_ofNat_of_lt (by omega)

/-- The years of the span leave room for any count of months in a word. -/
private theorem index_bounds {index : Int} (h : Supported (firstOfMonth index)) :
    -2 ^ 40 < index ∧ index < 2 ^ 40 := by
  rw [supported_firstOfMonth_iff] at h
  simp only [firstYear, lastYear] at h
  omega

/-- **A step by months** goes to the first of the target month and on from there. -/
theorem addMonths?_eq_some_iff :
    d.addMonths? n = some e ↔
      Supported (firstOfMonth (monthIndex d.fixed + n.toInt)) ∧
        e.fixed = firstOfMonth (monthIndex d.fixed + n.toInt) + (d.day - 1) := by
  have hmonth := d.toInt_month
  have hindex : monthIndex d.fixed = 12 * d.year + d.month - 1 := rfl
  have key : ∀ month₀ : Int64, month₀.toInt = d.month - 1 + n.toInt →
      (rolled? d.yearWord month₀ (Int64.ofNat d.day) = some e ↔
        Supported (firstOfMonth (monthIndex d.fixed + n.toInt)) ∧
          e.fixed = firstOfMonth (monthIndex d.fixed + n.toInt) + (d.day - 1)) := by
    intro month₀ h
    rw [rolled?_eq_some_iff_firstOfMonth, toInt_yearWord, toInt_day, h, hindex]
    rw [show 12 * d.year + (d.month - 1 + n.toInt) = 12 * d.year + d.month - 1 + n.toInt by omega]
  rw [addMonths?]
  constructor
  · intro h
    obtain ⟨month₀, hadd, h⟩ := Option.bind_eq_some_iff.1 h
    rw [Checked.add?_eq_some_iff, hmonth] at hadd
    exact (key month₀ hadd).1 h
  · intro h
    -- a sum that no word holds lies far outside the span
    have hbounds := index_bounds h.1
    have hyear := d.year_mem
    have := d.month_mem
    simp only [firstYear, lastYear] at hyear
    obtain ⟨month₀, hadd, hsum⟩ :=
      Checked.exists_int64? (n := (Int64.ofNat (d.month - 1)).toInt + n.toInt) (by omega)
    rw [hmonth] at hsum
    exact Option.bind_eq_some_iff.2 ⟨month₀, hadd, (key month₀ hsum).2 h⟩

/-- **A step by years** is one by twelve times as many months. -/
theorem addYears?_eq_some_iff :
    d.addYears? n = some e ↔
      Supported (firstOfMonth (monthIndex d.fixed + 12 * n.toInt)) ∧
        e.fixed = firstOfMonth (monthIndex d.fixed + 12 * n.toInt) + (d.day - 1) := by
  have hmonth := d.toInt_month
  have hindex : monthIndex d.fixed = 12 * d.year + d.month - 1 := rfl
  have key : ∀ year : Int32, year.toInt = d.year + n.toInt →
      (rolled? year (Int64.ofNat (d.month - 1)) (Int64.ofNat d.day) = some e ↔
        Supported (firstOfMonth (monthIndex d.fixed + 12 * n.toInt)) ∧
          e.fixed = firstOfMonth (monthIndex d.fixed + 12 * n.toInt) + (d.day - 1)) := by
    intro year h
    rw [rolled?_eq_some_iff_firstOfMonth, toInt_day, hmonth, h, hindex]
    rw [show 12 * (d.year + n.toInt) + (d.month - 1) =
      12 * d.year + d.month - 1 + 12 * n.toInt by omega]
  rw [addYears?_eq_rolled?]
  constructor
  · intro h
    obtain ⟨year, hadd, h⟩ := Option.bind_eq_some_iff.1 h
    rw [Checked.int32?_eq_some_iff] at hadd
    exact (key year hadd).1 h
  · intro h
    have hspan := supported_firstOfMonth_iff.1 h.1
    have hyear : -2 ^ 31 ≤ d.year + n.toInt ∧ d.year + n.toInt < 2 ^ 31 := by
      have := d.month_mem
      simp only [firstYear, lastYear, hindex] at hspan
      omega
    have hword := Int32.toInt_ofInt_of_le hyear.1 hyear.2
    refine Option.bind_eq_some_iff.2 ⟨Int32.ofInt (d.year + n.toInt), ?_, ?_⟩
    · rw [Checked.int32?_eq_some_iff, hword]
    · exact (key _ hword).2 h

end Date

namespace CalendarPhrase

open Gregorian

/-- A month and a day of a year lie as far behind the first of the month as the day says. -/
theorem inYear?_eq_some_iff {year : Int32} {month day : UInt32} {date : Date} :
    inYear? year month day = some date ↔
      Supported (firstOfMonth (12 * year.toInt + month.toNat - 1)) ∧
        date.fixed = firstOfMonth (12 * year.toInt + month.toNat - 1) + (day.toNat - 1) := by
  have hmonth := month.toNat_lt
  have hday := day.toNat_lt
  rw [inYear?, Date.rolled?_eq_some_iff_firstOfMonth, Int64.toInt_ofInt_of_le (by omega) (by omega),
    Int64.toInt_ofNat_of_lt (by omega), Int.add_sub_assoc]

end CalendarPhrase

end SpokenDate
