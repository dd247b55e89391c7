/-
Dates built from a year, a month and a day that may lie outside their ranges.

Surplus months make up years, so the month that is meant is settled over the integers: months are
counted from January of year 0, and quotient and remainder by twelve lead back to a year and a
month, for negative counts too.  From the first of that month the day is counted one by one.

* **`rolled?_eq_some_iff_liesAfter`**: which date is built, and when there is one;
* **`rolled?_of_reads`**, **`exists_rolled?_of_isReal`**: what needs no rollover is built as it is;
* **`rolled?_add_years`**: twelve months more are a year more;
* **`rolled?_is_rollover`**: all of this, for all words.
-/
import SpokenDate.Proofs.DayByDay

namespace SpokenDate

open Gregorian

/-- The first day of a month, where months are counted from January of year 0. -/
def Ymd.firstOf (index : Int) : Ymd := ⟨index / 12, (index % 12 + 1).toNat, 1⟩

theorem Ymd.isReal_firstOf (index : Int) : (firstOf index).IsReal :=
  isReal_first _ (by omega)

theorem Ymd.number_firstOf (index : Int) : (firstOf index).number = firstOfMonth index := rfl

namespace Date

variable {year later : Int32} {month₀ more day : Int64} {d : Date}

/-- **Rolling over builds the day that is meant.**  It fails only where the month that is meant
lies outside the span, or the day does. -/
theorem rolled?_eq_some_iff_liesAfter :
    rolled? year month₀ day = some d ↔
      (firstYear ≤ (12 * year.toInt + month₀.toInt) / 12 ∧
        (12 * year.toInt + month₀.toInt) / 12 ≤ lastYear) ∧
      d.ymd.LiesAfter (.firstOf (12 * year.toInt + month₀.toInt)) (day.toInt - 1) := by
  rw [rolled?_eq_some_iff_firstOfMonth, supported_firstOfMonth_iff,
    Ymd.liesAfter_iff (Ymd.isReal_firstOf _) (Ymd.isReal_ymd d), Ymd.number_ymd,
    Ymd.number_firstOf]

/-- The words that a date reads lead back to it. -/
theorem rolled?_of_reads (hyear : year.toInt = d.year) (hmonth : month₀.toInt = d.month - 1)
    (hday : day.toInt = d.day) : rolled? year month₀ day = some d := by
  have hindex : 12 * year.toInt + month₀.toInt = monthIndex d.fixed := by
    rw [hyear, hmonth, ← Int.add_sub_assoc]
    rfl
  have hfixed := firstOfMonth_monthIndex d.fixed
  rw [rolled?_eq_some_iff_firstOfMonth, hindex, hday, supported_firstOfMonth_iff, monthIndex_div]
  refine ⟨d.year_mem, ?_⟩
  show d.fixed = firstOfMonth (monthIndex d.fixed) + (dayOf d.fixed - 1)
  omega

/-- Twelve months more are a year more. -/
theorem rolled?_add_years {years : Int} (hyear : later.toInt = year.toInt + years)
    (hmonth : more.toInt = month₀.toInt + 12 * years) :
    rolled? year more day = rolled? later month₀ day := by
  have hindex : 12 * year.toInt + more.toInt = 12 * later.toInt + month₀.toInt := by omega
  refine Option.ext fun d => ?_
  rw [rolled?_eq_some_iff_firstOfMonth, rolled?_eq_some_iff_firstOfMonth, hindex]

/-- Every day that the calendar has in a supported year is built as it is. -/
theorem exists_rolled?_of_isReal {c : Ymd} (hreal : c.IsReal)
    (hspan : firstYear ≤ c.year ∧ c.year ≤ lastYear) :
    ∃ d : Date, d.ymd = c ∧ ∀ (year : Int32) (month₀ day : Int64), year.toInt = c.year →
      month₀.toInt = c.month - 1 → day.toInt = c.day → rolled? year month₀ day = some d := by
  obtain ⟨d, hd⟩ := exists_ofYmd? hspan hreal.month hreal.day
  obtain rfl := Ymd.date?_eq_some_iff.1 hd
  exact ⟨d, rfl, fun _ _ _ hyear hmonth hday => rolled?_of_reads hyear hmonth hday⟩

/-- **Building a date is exact rollover**, and no word in between is ever too small for it.  So the
words that a date reads lead back to it, every day that the calendar has in a supported year is
built as it is, and years may be given as months. -/
theorem rolled?_is_rollover :
    (∀ (year : Int32) (month₀ day : Int64) (d : Date),
      rolled? year month₀ day = some d ↔
        (firstYear ≤ (12 * year.toInt + month₀.toInt) / 12 ∧
          (12 * year.toInt + month₀.toInt) / 12 ≤ lastYear) ∧
        d.ymd.LiesAfter (.firstOf (12 * year.toInt + month₀.toInt)) (day.toInt - 1)) ∧
    (∀ d : Date, rolled? d.yearWord (Int64.ofNat (d.month - 1)) (Int64.ofNat d.day) = some d) ∧
    (∀ c : Ymd, c.IsReal → firstYear ≤ c.year ∧ c.year ≤ lastYear →
      ∃ d : Date, d.ymd = c ∧ ∀ (year : Int32) (month₀ day : Int64), year.toInt = c.year →
        month₀.toInt = c.month - 1 → day.toInt = c.day → rolled? year month₀ day = some d) ∧
    ∀ (year later : Int32) (month₀ more day : Int64) (years : Int),
      later.toInt = year.toInt + years → more.toInt = month₀.toInt + 12 * years →
        rolled? year more day = rolled? later month₀ day := by
  refine ⟨?_, ?_, ?_, ?_⟩
  · intro year month₀ day d
    exact rolled?_eq_some_iff_liesAfter
  · intro d
    exact rolled?_of_reads d.toInt_yearWord d.toInt_month d.toInt_day
  · intro c hreal hspan
    exact exists_rolled?_of_isReal hreal hspan
  · intro year later month₀ more day years hyear hmonth
    exact rolled?_add_years hyear hmonth

end Date

end SpokenDate
