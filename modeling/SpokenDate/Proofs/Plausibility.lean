/-
Which calendar phrases are plausible.

A day is looked up by going on from the first of its month, so a day that its month does not
have comes to lie in another.  The test for this only looks at the name of the month that is
reached.  Up to day 365 no other month of the same name is in reach, and so the test asks
exactly whether there is such a day.

* **`inYear?_month_iff`**: the days that come to lie in a month of the same name;
* **`isPlausible_iff_countsOn`**: what the test accepts, over all days;
* **`isPlausible_iff`**: up to day 365 it accepts the days that there are, and no others;
* **`isPlausible_of_remains`**: what is plausible stays so while parts of it are missing.
-/
import SpokenDate.Proofs.MonthStep

namespace SpokenDate

open Gregorian

/-- Whoever counts on from the first of a month comes to months of the same name in the same
year or in later ones. -/
theorem Gregorian.exists_monthIndex_eq {n index : Int} {k : Nat}
    (hmod : monthIndex n % 12 = index % 12) (hday : n = firstOfMonth index + (k - 1)) :
    ∃ years : Nat, monthIndex n = index + 12 * years := by
  have hfirst := firstOfMonth_monthIndex n
  have hmem := dayOf_mem n
  have hlength := monthLength_le (yearOf n) (monthOf n)
  have hle : index ≤ monthIndex n := by
    refine Int.not_lt.1 fun h => ?_
    -- a whole year would lie between the two
    have hgap := firstOfMonth_add_le (monthIndex n) (index - monthIndex n).toNat
    rw [show monthIndex n + (index - monthIndex n).toNat = index by omega] at hgap
    omega
  exact ⟨((monthIndex n - index) / 12).toNat, by omega⟩

namespace CalendarPhrase

/-- The year is supported and the month is one of the year that has the day. -/
def Exists (year : Int) (month day : Nat) : Prop :=
  (firstYear ≤ year ∧ year ≤ lastYear) ∧ (1 ≤ month ∧ month ≤ 12) ∧
    1 ≤ day ∧ day ≤ monthLength year month

/-- Counted on from the first of the month, the day is one of the month of the same name so many
years later. -/
def CountsOn (years : Nat) (year : Int) (month day : Nat) : Prop :=
  firstYear ≤ year ∧ ∃ k, Exists (year + years) month k ∧
    fixed (year + years) month k = fixed year month 1 + (day - 1)

theorem countsOn_zero_iff {year : Int} {month day : Nat} :
    CountsOn 0 year month day ↔ Exists year month day := by
  simp only [CountsOn, Int.natCast_zero, Int.add_zero, fixed]
  constructor
  · rintro ⟨-, k, hexists, hfixed⟩
    obtain rfl : k = day := by omega
    exact hexists
  · intro h
    exact ⟨h.1.1, day, h, by omega⟩

/-- Years are at least 365 days long. -/
theorem lt_of_countsOn {years : Nat} {year : Int} {month day : Nat}
    (h : CountsOn years year month day) : 365 * years < day := by
  obtain ⟨-, k, ⟨-, hmonth, hk, -⟩, hfixed⟩ := h
  have hgap := firstOfMonth_add_years_le (12 * year + month - 1) years
  rw [show 12 * year + month - 1 + 12 * years = 12 * (year + years) + month - 1 by omega,
    firstOfMonth_ymd hmonth, firstOfMonth_ymd hmonth] at hgap
  simp only [fixed] at hgap hfixed
  omega

/-- **A day comes to lie in a month of the same name** exactly when it counts on to one. -/
theorem inYear?_month_iff {year : Int32} {month day : UInt32} :
    (∃ date, inYear? year month day = some date ∧ date.month = month.toNat) ↔
      ∃ years, CountsOn years year.toInt month.toNat day.toNat := by
  simp only [inYear?_eq_some_iff]
  constructor
  · rintro ⟨date, ⟨hfirst, hfixed⟩, hmonth⟩
    have hmem := date.month_mem
    rw [hmonth] at hmem
    have hindex : monthIndex date.fixed = 12 * date.year + date.month - 1 := rfl
    have hmod : monthIndex date.fixed % 12 = (12 * year.toInt + month.toNat - 1) % 12 := by omega
    obtain ⟨years, hyears⟩ := exists_monthIndex_eq hmod hfixed
    have hyear : date.year = year.toInt + years := by omega
    rw [supported_firstOfMonth_iff,
      show (12 * year.toInt + month.toNat - 1) / 12 = year.toInt by omega] at hfirst
    rw [firstOfMonth_ymd hmem] at hfixed
    refine ⟨years, hfirst.1, date.day, ⟨?_, hmem, ?_⟩, ?_⟩
    · exact hyear ▸ date.year_mem
    · exact hyear ▸ hmonth ▸ date.day_mem
    · rw [← hfixed, ← date.fixed_ymd, hyear, hmonth]
  · rintro ⟨years, hfirst, k, ⟨hyear, hmonth, hk⟩, hfixed⟩
    -- the day of the later year is the one that is reached from the first of the month
    obtain ⟨date, hdate⟩ := Date.exists_ofYmd? hyear hmonth hk
    obtain ⟨hy, hm, hd⟩ := Date.ofYmd?_eq_some_iff.1 hdate
    have hymd := date.fixed_ymd
    rw [hy, hm, hd] at hymd
    refine ⟨date, ⟨?_, ?_⟩, hm⟩
    · rw [supported_firstOfMonth_iff,
        show (12 * year.toInt + month.toNat - 1) / 12 = year.toInt by omega]
      omega
    · rw [← hymd, hfixed, firstOfMonth_ymd hmonth]

/-- **What the test accepts**, over all days. -/
theorem isPlausible_iff_countsOn {month day : UInt32} {year : Option Year} :
    isPlausible ⟨some month, some day, year⟩ = true ↔
      ∃ y, yearOr? ⟨some month, some day, year⟩ validationYear = some y ∧
        ∃ years, CountsOn years y.toInt month.toNat day.toNat := by
  simp only [isPlausible, Option.any_eq_true, Option.bind_eq_some_iff, decide_eq_true_eq,
    ← inYear?_month_iff]
  constructor
  · rintro ⟨date, ⟨y, hy, hdate⟩, hmonth⟩
    exact ⟨y, hy, date, hdate, hmonth⟩
  · rintro ⟨y, hy, date, hdate, hmonth⟩
    exact ⟨date, ⟨y, hy, hdate⟩, hmonth⟩

/-- **Up to day 365** the test accepts the days that there are, and no others. -/
theorem isPlausible_iff {month day : UInt32} {year : Option Year} (hday : day.toNat ≤ 365) :
    isPlausible ⟨some month, some day, year⟩ = true ↔
      ∃ y, yearOr? ⟨some month, some day, year⟩ validationYear = some y ∧
        Exists y.toInt month.toNat day.toNat := by
  have hnone : ∀ y : Int, (∃ years, CountsOn years y month.toNat day.toNat) ↔
      Exists y month.toNat day.toNat := by
    intro y
    rw [← countsOn_zero_iff]
    constructor
    · rintro ⟨years, h⟩
      -- a later year is out of reach
      have hlt := lt_of_countsOn h
      obtain rfl : years = 0 := by omega
      exact h
    · exact fun h => ⟨0, h⟩
  simp only [isPlausible_iff_countsOn, hnone]

/-- What some year has, the year has that phrases without one are judged by. -/
theorem exists_validationYear {year : Int} {month day : Nat} (h : Exists year month day) :
    Exists validationYear.toInt month day := by
  obtain ⟨-, hmonth, hday⟩ := h
  have hleap : isLeap validationYear.toInt = true := by decide
  refine ⟨by decide, hmonth, hday.1, Nat.le_trans hday.2 ?_⟩
  simp only [monthLength, hleap, if_true]
  split
  · split <;> omega
  · exact Nat.le_refl _

/-- **What is plausible stays so while parts of it are missing.** -/
theorem isPlausible_of_remains {part phrase : CalendarPhrase}
    (hday : ∀ day, phrase.day = some day → day.toNat ≤ 31)
    (hmonths : part.month = none ∨ part.month = phrase.month)
    (hdays : part.day = none ∨ part.day = phrase.day)
    (hyears : part.year = none ∨ part.year = phrase.year) (h : phrase.isPlausible = true) :
    part.isPlausible = true := by
  obtain ⟨partMonth, partDay, partYear⟩ := part
  obtain ⟨month, day, year⟩ := phrase
  rcases hmonths with rfl | rfl
  · exact isPlausible_of_incomplete (.inl rfl)
  · rcases hdays with rfl | rfl
    · exact isPlausible_of_incomplete (.inr rfl)
    · rcases hyears with rfl | rfl
      · cases partMonth with
        | none => exact isPlausible_of_incomplete (.inl rfl)
        | some month =>
          cases partDay with
          | none => exact isPlausible_of_incomplete (.inr rfl)
          | some day =>
            -- only the year is missing
            have hle := Nat.le_trans (hday day rfl) (show 31 ≤ 365 by omega)
            obtain ⟨y, -, hexists⟩ := (isPlausible_iff hle).1 h
            exact (isPlausible_iff hle).2 ⟨_, rfl, exists_validationYear hexists⟩
      · exact h

end CalendarPhrase

end SpokenDate
