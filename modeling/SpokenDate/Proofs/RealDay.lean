/-
Real days, and phrases that pass for them.

A month and a day that pass the test of plausibility are a day of the calendar, as long as the
day does not run through a whole year.  Without a year they are tried on a leap year, and that
year is not seen again: the date found lies in the year of today.

* **`isPlausible_iff_exists_or_countsOn`**: the test for a month, a day and perhaps a year;
* **`keep_day367OfJanuary`**: a day beyond all months that is kept;
* **`inYear?_eq_of_fixed`**: a month and a day that may run over lead to the day they count to;
* **`isPlausible_without_year`**: the test without a year, and the date that is found then.
-/
import SpokenDate.Proofs.Plausibility
import SpokenDate.Proofs.Pruning

namespace SpokenDate

open Gregorian

namespace CalendarPhrase

/-- **The test of plausibility accepts the real days**, and besides them only days that count on
into a later year, to the month of the same name.  No such day comes before day 366. -/
theorem isPlausible_iff_exists_or_countsOn (month day : UInt32) (year : Option Year) :
    (isPlausible ⟨some month, some day, year⟩ = true ↔
      ∃ y, yearOr? ⟨some month, some day, year⟩ validationYear = some y ∧
        (Exists y.toInt month.toNat day.toNat ∨
          ∃ years, CountsOn (years + 1) y.toInt month.toNat day.toNat)) ∧
    (day.toNat ≤ 365 →
      (isPlausible ⟨some month, some day, year⟩ = true ↔
        ∃ y, yearOr? ⟨some month, some day, year⟩ validationYear = some y ∧
          Exists y.toInt month.toNat day.toNat)) := by
  refine ⟨?_, isPlausible_iff⟩
  have hcases : ∀ y : Int, (∃ years, CountsOn years y month.toNat day.toNat) ↔
      Exists y month.toNat day.toNat ∨
        ∃ years, CountsOn (years + 1) y month.toNat day.toNat := by
    intro y
    rw [← countsOn_zero_iff]
    constructor
    · rintro ⟨years, h⟩
      cases years with
      | zero => exact .inl h
      | succ years => exact .inr ⟨years, h⟩
    · rintro (h | ⟨years, h⟩)
      · exact ⟨0, h⟩
      · exact ⟨years + 1, h⟩
  simp only [isPlausible_iff_countsOn, hcases]

end CalendarPhrase

/-- Day 367 of January, which the leap year of the test takes to 1 January of the next one. -/
def day367OfJanuary : Fields :=
  .singleton "absolute" (.map (.ofList [("month", .integer 1), ("day", .integer 367)]))

/-- **A day beyond all months is kept**, where it counts on to the same month a year later. -/
theorem keep_day367OfJanuary :
    Phrase.ofFields day367OfJanuary 32 = .ok (.calendar ⟨some 1, some 367, none⟩) ∧
    keep day367OfJanuary {} = .ok true ∧ ∀ year, ¬CalendarPhrase.Exists year 1 367 := by
  refine ⟨rfl, rfl, ?_⟩
  rintro year ⟨-, -, -, hday⟩
  have := monthLength_le year 1
  omega

namespace CalendarPhrase

variable {year : Int32} {month day : UInt32} {today date : Date}

/-! ### Days of a year -/

/-- A month and a day of a supported year mean the day they count to there. -/
theorem inYear?_eq_of_fixed (hyear : firstYear ≤ year.toInt ∧ year.toInt ≤ lastYear)
    (hmonth : 1 ≤ month.toNat ∧ month.toNat ≤ 12)
    (h : date.fixed = fixed year.toInt month.toNat 1 + (day.toNat - 1)) :
    inYear? year month day = some date := by
  have hdiv : (12 * year.toInt + month.toNat - 1) / 12 = year.toInt := by omega
  rw [inYear?_eq_some_iff, supported_firstOfMonth_iff, hdiv, firstOfMonth_ymd hmonth]
  exact ⟨hyear, h⟩

/-- A day that the year has is found there. -/
theorem inYear?_of_exists (h : Exists year.toInt month.toNat day.toNat) :
    ∃ date, inYear? year month day = some date ∧ date.year = year.toInt ∧
      date.month = month.toNat ∧ date.day = day.toNat := by
  obtain ⟨hyear, hmonth, hday⟩ := h
  obtain ⟨date, hdate⟩ := Date.exists_ofYmd? hyear hmonth hday
  obtain ⟨hy, hm, hd⟩ := Date.ofYmd?_eq_some_iff.1 hdate
  refine ⟨date, inYear?_eq_of_fixed hyear hmonth ?_, hy, hm, hd⟩
  rw [← date.fixed_ymd, hy, hm, hd]
  simp only [fixed]
  omega

/-- In a common year the day after 28 February is 1 March. -/
theorem inYear?_leapDay (hyear : firstYear ≤ year.toInt ∧ year.toInt ≤ lastYear)
    (hleap : isLeap year.toInt = false) :
    ∃ date, inYear? year 2 29 = some date ∧ date.year = year.toInt ∧ date.month = 3 ∧
      date.day = 1 := by
  obtain ⟨date, hdate⟩ := Date.exists_ofYmd? hyear (m := 3) (k := 1) (by omega)
    (by simp [monthLength])
  obtain ⟨hy, hm, hd⟩ := Date.ofYmd?_eq_some_iff.1 hdate
  have hlength : monthLength year.toInt 2 = 28 := by simp [monthLength, hleap]
  refine ⟨date, inYear?_eq_of_fixed hyear (by decide) ?_, hy, hm, hd⟩
  rw [← date.fixed_ymd, hy, hm, hd]
  show fixed year.toInt 3 1 = fixed year.toInt 2 1 + (29 - 1)
  simp only [fixed, daysBeforeMonth_succ year.toInt (show 1 ≤ 2 by omega), hlength]
  omega

/-! ### Phrases without a year -/

/-- A day that the current year has is found there. -/
theorem resolve?_of_exists (h : Exists today.year month.toNat day.toNat) :
    ∃ date, resolve? ⟨some month, some day, none⟩ today = some date ∧ date.year = today.year ∧
      date.month = month.toNat ∧ date.day = day.toNat := by
  rw [← today.toInt_yearWord] at h ⊢
  exact inYear?_of_exists h

/-- The 29 February of a common current year is its 1 March. -/
theorem resolve?_leapDay (hleap : isLeap today.year = false) :
    ∃ date, resolve? ⟨some 2, some 29, none⟩ today = some date ∧ date.year = today.year ∧
      date.month = 3 ∧ date.day = 1 := by
  have hyear := today.year_mem
  rw [← today.toInt_yearWord] at hyear hleap ⊢
  exact inYear?_leapDay hyear hleap

/-- Of the days that a leap year has, a common year lacks its 29 February only. -/
theorem exists_or_leapDay {year other : Int} {month day : Nat} (h : Exists other month day)
    (hyear : firstYear ≤ year ∧ year ≤ lastYear) :
    Exists year month day ∨ month = 2 ∧ day = 29 ∧ isLeap year = false := by
  obtain ⟨-, hmonth, hday⟩ := h
  by_cases hle : day ≤ monthLength year month
  · exact .inl ⟨hyear, hmonth, hday.1, hle⟩
  · refine .inr ?_
    by_cases hfebruary : month = 2
    · subst hfebruary
      have hother : monthLength other 2 ≤ 29 := by
        rw [monthLength, if_pos rfl]
        split <;> omega
      cases hleap : isLeap year <;> rw [monthLength, if_pos rfl, hleap] at hle
      · exact ⟨rfl, by simp only [Bool.false_eq_true, if_false] at hle; omega, rfl⟩
      · simp only [if_true] at hle
        omega
    · -- the other months are as long in every year
      rw [monthLength, if_neg hfebruary] at hday hle
      exact absurd hday.2 hle

/-- **The year of the test is not seen.**  Up to day 31, a month and a day without a year pass
exactly where they would with some year that is supported.  What passes is found in the year of
today, and only 29 February of a common year is moved, to 1 March. -/
theorem isPlausible_without_year (hday : day.toNat ≤ 31) :
    (isPlausible ⟨some month, some day, none⟩ = true ↔
      ∃ year : Int32, (firstYear ≤ year.toInt ∧ year.toInt ≤ lastYear) ∧
        isPlausible ⟨some month, some day, some (.full year)⟩ = true) ∧
    (isPlausible ⟨some month, some day, none⟩ = true → ∀ today : Date,
      ∃ date, resolve? ⟨some month, some day, none⟩ today = some date ∧ date.year = today.year ∧
        ((date.month = month.toNat ∧ date.day = day.toNat) ∨
          (¬Exists today.year month.toNat day.toNat ∧ month = 2 ∧ day = 29 ∧
            isLeap today.year = false ∧ date.month = 3 ∧ date.day = 1))) := by
  have hle : day.toNat ≤ 365 := by omega
  have htest : isPlausible ⟨some month, some day, none⟩ = true ↔
      Exists validationYear.toInt month.toNat day.toNat := by
    rw [isPlausible_iff hle]
    simp only [yearOr?, Option.some_inj, exists_eq_left']
  have hfull : ∀ year : Int32, isPlausible ⟨some month, some day, some (.full year)⟩ = true ↔
      Exists year.toInt month.toNat day.toNat := by
    intro year
    rw [isPlausible_iff hle]
    simp only [yearOr?, Year.value?, Option.some_inj, exists_eq_left']
  refine ⟨?_, ?_⟩
  · rw [htest]
    constructor
    · intro h
      exact ⟨validationYear, h.1, (hfull _).2 h⟩
    · rintro ⟨year, -, h⟩
      exact exists_validationYear ((hfull year).1 h)
  · intro h today
    by_cases hexists : Exists today.year month.toNat day.toNat
    · obtain ⟨date, hdate, hyear, hmonth, hday⟩ := resolve?_of_exists hexists
      exact ⟨date, hdate, hyear, .inl ⟨hmonth, hday⟩⟩
    · obtain ⟨hmonth, hday, hleap⟩ :=
        (exists_or_leapDay (htest.1 h) today.year_mem).resolve_left hexists
      obtain rfl : month = 2 := UInt32.toNat_inj.1 hmonth
      obtain rfl : day = 29 := UInt32.toNat_inj.1 hday
      obtain ⟨date, hdate, hyear, hmarch, hfirst⟩ := resolve?_leapDay hleap
      exact ⟨date, hdate, hyear, .inr ⟨hexists, rfl, rfl, hleap, hmarch, hfirst⟩⟩

/-- 1 January 2021. -/
def newYear2021 : Date := ⟨737791, by decide, by decide⟩

theorem isPlausible_without_year_leapDay :
    (29 : UInt32).toNat ≤ 31 ∧ isPlausible ⟨some 2, some 29, none⟩ = true ∧
    ∃ date, resolve? ⟨some 2, some 29, none⟩ newYear2021 = some date ∧ date.year = 2021 ∧
      date.month = 3 ∧ date.day = 1 := by
  have hday : (29 : UInt32).toNat ≤ 31 := by decide
  have hplausible : isPlausible ⟨some 2, some 29, none⟩ = true := by decide
  have htoday : newYear2021.year = 2021 := by decide
  obtain ⟨date, hdate, hyear, hrest⟩ :=
    (isPlausible_without_year hday).2 hplausible newYear2021
  rw [htoday] at hyear
  refine ⟨hday, hplausible, date, hdate, hyear, ?_⟩
  rcases hrest with ⟨hmonth, hlast⟩ | ⟨-, -, -, -, hmarch, hfirst⟩
  · -- no date of 2021 is 29 February
    have hmem := date.day_mem.2
    rw [hyear, hmonth, hlast] at hmem
    exact absurd hmem (by decide)
  · exact ⟨hmarch, hfirst⟩

end CalendarPhrase

end SpokenDate
