/-
Steps by months and years that merge into one.

A year is twelve months, so a step by years is one by months, as long as a word holds that many
months.  Where no word does, the step by years leads nowhere either.

Up to day 28 every month has the day that a step asks for.  So nothing is taken from the month
after, the day stays, and the number of the month grows by the count.  Steps by months and years
then add up, in whatever order they are taken.

* **`addYears?_eq_addMonths?`**: a step by years is one by twelve times as many months;
* **`leads_months_iff_of_day_le`**: what a leg of months does to a day up to 28;
* **`addTo?_merges`**: the days and weeks of a duration, and then its months and years, in one.
-/
import SpokenDate.Proofs.Exactness
import SpokenDate.Proofs.MonthEnd

namespace SpokenDate

open Gregorian

variable {d e t r : Date} {n : Int64}

/-! ### Years are twelve months -/

namespace Date

/-- A step by years multiplies first and goes by months then. -/
theorem addYears?_eq_bind (d : Date) (n : Int64) :
    d.addYears? n = (Checked.mul? n 12).bind d.addMonths? := by
  refine Option.ext fun e => ?_
  rw [addYears?_iff_leads, bind_mul?_iff_leads addMonths?_iff_leads, CalendarUnit.leg,
    CalendarUnit.leg, Int.mul_comm]
  rfl

/-- Twelve months more make the target month one of a later year. -/
theorem year_target_twelve (d : Date) (years : Int) :
    (d.target (12 * years)).year = d.year + years := by
  have hmonth := d.month_mem
  simp only [target, Ymd.firstOf]
  omega

/-- A step by years fails only where the span does not hold the year. -/
theorem exists_addYears?_iff :
    (∃ e, d.addYears? n = some e) ↔
      firstYear ≤ d.year + n.toInt ∧ d.year + n.toInt ≤ lastYear := by
  have htwelve : (12 : Int64).toInt = 12 := rfl
  rw [addYears?_eq_bind]
  cases h : Checked.mul? n 12 with
  | some months =>
    rw [Checked.mul?_eq_some_iff, htwelve, Int.mul_comm] at h
    rw [Option.bind_some, exists_addMonths?_iff, h, year_target_twelve]
  | none =>
    -- so many years lead out of the span
    have hyear := d.year_mem
    rw [Checked.mul?_eq_none_iff, htwelve] at h
    simp only [firstYear, lastYear] at hyear ⊢
    simp only [Option.bind_none, reduceCtorEq, exists_false, false_iff]
    omega

/-- **A step by years is a step by twelve times as many months**, also where either fails and
where the day rolls over.  It fails where no word holds so many months, and in any case only where
the span does not hold the year. -/
theorem addYears?_eq_addMonths? (d : Date) (n : Int64) :
    (∀ months : Int64, months.toInt = 12 * n.toInt → d.addYears? n = d.addMonths? months) ∧
    (12 * n.toInt < -2 ^ 63 ∨ 2 ^ 63 ≤ 12 * n.toInt → d.addYears? n = none) ∧
    ((∃ e, d.addYears? n = some e) ↔
      firstYear ≤ d.year + n.toInt ∧ d.year + n.toInt ≤ lastYear) := by
  have htwelve : (12 : Int64).toInt = 12 := rfl
  refine ⟨?_, ?_, exists_addYears?_iff⟩
  · intro months h
    have hmul : Checked.mul? n 12 = some months := by
      rw [Checked.mul?_eq_some_iff, h, htwelve, Int.mul_comm]
    rw [addYears?_eq_bind, hmul, Option.bind_some]
  · intro h
    have hmul : Checked.mul? n 12 = none := by
      rw [Checked.mul?_eq_none_iff, htwelve]
      omega
    rw [addYears?_eq_bind, hmul, Option.bind_none]

end Date

/-! ### Up to day 28 -/

/-- Every month has the first 28 days. -/
theorem Gregorian.eq_firstOfMonth_add_iff {day : Nat} {n index : Int} (h : 1 ≤ day ∧ day ≤ 28) :
    n = firstOfMonth index + (day - 1) ↔ monthIndex n = index ∧ dayOf n = day := by
  constructor
  · rintro rfl
    have hmonth : 1 ≤ (index % 12 + 1).toNat ∧ (index % 12 + 1).toNat ≤ 12 := by omega
    have hday : 1 ≤ day ∧ day ≤ monthLength (index / 12) (index % 12 + 1).toNat :=
      ⟨h.1, Nat.le_trans h.2 (monthLength_pos _ _)⟩
    have hfixed : firstOfMonth index + (day - 1) =
        fixed (index / 12) (index % 12 + 1).toNat day := by
      simp only [firstOfMonth, fixed]
      omega
    rw [hfixed, monthIndex, yearOf_fixed hmonth hday, monthOf_fixed hmonth hday,
      dayOf_fixed hmonth hday]
    omega
  · rintro ⟨rfl, rfl⟩
    have hfirst := firstOfMonth_monthIndex n
    omega

/-- **Up to day 28 a leg of months keeps the day** and moves the month by its count. -/
theorem leads_months_iff_of_day_le {months : Int} (h : e.day ≤ 28) :
    Leads [.months months] e.fixed r.fixed ↔
      r.day = e.day ∧ r.ymd.index = e.ymd.index + months := by
  have hday : 1 ≤ dayOf e.fixed ∧ dayOf e.fixed ≤ 28 := ⟨e.day_mem.1, h⟩
  rw [leads_months, eq_firstOfMonth_add_iff hday]
  constructor
  · rintro ⟨-, hindex, hsame⟩
    exact ⟨hsame, hindex⟩
  · rintro ⟨hsame, hindex⟩
    have hmonth : monthIndex r.fixed = monthIndex e.fixed + months := hindex
    refine ⟨?_, hmonth, hsame⟩
    -- the month that is reached is that of a date
    rw [← hmonth, supported_firstOfMonth_iff, monthIndex_div]
    exact r.year_mem

/-- Two legs of months from such a day are as good as one. -/
theorem leads_months_add_iff {months more : Int} (h : d.day ≤ 28)
    (hfirst : Leads [.months months] d.fixed e.fixed) :
    Leads [.months more] e.fixed r.fixed ↔ Leads [.months (months + more)] d.fixed r.fixed := by
  obtain ⟨hsame, hindex⟩ := (leads_months_iff_of_day_le h).1 hfirst
  rw [leads_months_iff_of_day_le (hsame ▸ h), leads_months_iff_of_day_le h, hsame, hindex,
    Int.add_assoc]

namespace Duration

variable {duration : Duration}

/-- **A duration comes to two moves.**  Its days and weeks move by as many days together.  Where
they lead to a day up to 28, its months and years keep this day and move by as many months together,
so they may be taken years first, or as one step by months. -/
theorem addTo?_merges (h : duration.addTo? t = some r) :
    ∃ e : Date,
      (step? Date.addDays? t duration.days).bind (step? Date.addWeeks? · duration.weeks) =
        some e ∧
      e.fixed = t.fixed + (amount duration.days + 7 * amount duration.weeks) ∧
      (e.day ≤ 28 →
        (r.day = e.day ∧
          r.ymd.index = e.ymd.index + (amount duration.months + 12 * amount duration.years)) ∧
        (∀ between, step? Date.addYears? e duration.years = some between →
          step? Date.addMonths? between duration.months = some r) ∧
        ∃ months : Int64, months.toInt = amount duration.months + 12 * amount duration.years ∧
          e.addMonths? months = some r) := by
  obtain ⟨afterDays, hdays, h⟩ := Option.bind_eq_some_iff.1 h
  obtain ⟨e, hweeks, h⟩ := Option.bind_eq_some_iff.1 h
  obtain ⟨afterMonths, hmonths, hyears⟩ := Option.bind_eq_some_iff.1 h
  refine ⟨e, Option.bind_eq_some_iff.2 ⟨afterDays, hdays, hweeks⟩, ?_, ?_⟩
  · rw [step?_iff_leads .day addDays?_iff_leads, CalendarUnit.leg, leads_days] at hdays
    rw [step?_iff_leads .week addWeeks?_iff_leads, CalendarUnit.leg, leads_days, hdays] at hweeks
    rw [hweeks, Int.add_assoc]
  · intro hday
    rw [step?_iff_leads .month addMonths?_iff_leads] at hmonths
    rw [step?_iff_leads .year addYears?_iff_leads] at hyears
    have hone : Leads
        [CalendarUnit.month.leg (amount duration.months + 12 * amount duration.years)]
        e.fixed r.fixed := (leads_months_add_iff hday hmonths).1 hyears
    refine ⟨(leads_months_iff_of_day_le hday).1 hone, ?_, ?_⟩
    · intro between hbetween
      rw [step?_iff_leads .year addYears?_iff_leads] at hbetween
      rw [step?_iff_leads .month addMonths?_iff_leads]
      refine (leads_months_add_iff hday hbetween).2 ?_
      rwa [Int.add_comm]
    · -- so many months stay inside the span, so a word holds them
      have hbounds := number_bounds_of_leads hone
      have hword := Int64.toInt_ofInt_of_le
        (n := amount duration.months + 12 * amount duration.years) (by omega) (by omega)
      refine ⟨_, hword, ?_⟩
      rwa [addMonths?_iff_leads, hword]

/-- A day less, fourteen months more and two years less. -/
def backAndForth : Duration := ⟨some (-1), none, some 14, some (-2)⟩

/-- 1 March 2021. -/
def firstOfMarch : Date := ⟨737850, by decide, by decide⟩

/-- 28 April 2020. -/
def lateInApril : Date := ⟨737543, by decide, by decide⟩

/-- From the day before, the last of a February, the months and years go back by ten months. -/
theorem addTo?_merges_backAndForth :
    backAndForth.addTo? firstOfMarch = some lateInApril ∧
    ∃ e : Date, e.fixed = firstOfMarch.fixed - 1 ∧
      (lateInApril.day = e.day ∧ lateInApril.ymd.index = e.ymd.index - 10) ∧
      (∀ between, e.addYears? (-2) = some between → between.addMonths? 14 = some lateInApril) ∧
      ∃ months : Int64, months.toInt = -10 ∧ e.addMonths? months = some lateInApril := by
  have hadd : backAndForth.addTo? firstOfMarch = some lateInApril := by decide +kernel
  obtain ⟨e, -, hfixed, hmerges⟩ := addTo?_merges hadd
  have hday : e.day ≤ 28 := by
    rw [Date.day, hfixed]
    decide
  exact ⟨hadd, e, hfixed, hmerges hday⟩

end Duration

end SpokenDate
