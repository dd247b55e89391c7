/-
Weeks from Sunday to Saturday, and the weekdays that are counted by them.

A weekday with a distance is the day of that name in a week that is told by its distance from the
week of today.  Every week has one such day, so nothing but the ends of the span can keep it from
being found.  A weekday on its own lies in this week or in the next, and which of the two it is
depends on whether its day of this week is over.

* **`mem_weekAt_and_weekday_iff`**: every week has one day of each name;
* **`WeekdayPhrase.resolve?_eq_ofFixed?_of_distance`**: a weekday with a distance is this day of its
  week, if the span holds it;
* **`WeekdayPhrase.resolve?_plain_eq`**: the distance that a weekday on its own stands for;
* **`WeekdayPhrase.resolve?_counts_weeks`**: all of this, for all distances.
-/
import SpokenDate.Proofs.Chain
import SpokenDate.Proofs.Weekday

namespace SpokenDate

variable {weekday distance next : Int64} {today d e : Date} {weeks w n : Int}

/-! ### Weeks -/

/-- The days of the week, from Sunday to Saturday, that lies so many weeks after the week of a
date. -/
def Date.weekAt (today : Date) (weeks : Int) : Set Int :=
  {n | today.weekStart + 7 * weeks ≤ n ∧ n < today.weekStart + 7 * (weeks + 1)}

/-- A week begins on a Sunday. -/
theorem Date.weekStart_emod (d : Date) : d.weekStart % 7 = 0 := by
  rw [weekStart, d.cast_weekday]
  omega

/-- Today is a day of its own week. -/
theorem Date.fixed_mem_weekAt (d : Date) : d.fixed ∈ d.weekAt 0 := by
  have hlt := d.weekday_lt
  show d.weekStart + 7 * 0 ≤ d.fixed ∧ d.fixed < d.weekStart + 7 * (0 + 1)
  rw [weekStart]
  omega

/-- **Every week has one day of each name**, which lies as far behind its Sunday as the weekday
says. -/
theorem mem_weekAt_and_weekday_iff (hw : 0 ≤ w ∧ w ≤ 6) :
    n ∈ today.weekAt weeks ∧ n % 7 = w ↔ n = today.weekStart + 7 * weeks + w := by
  have hsunday := today.weekStart_emod
  show (today.weekStart + 7 * weeks ≤ n ∧ n < today.weekStart + 7 * (weeks + 1)) ∧ n % 7 = w ↔ _
  omega

namespace WeekdayPhrase

/-! ### Weekdays with a distance -/

/-- **A weekday with a distance** is the day of that name in the week that it counts to, if the span
holds it. -/
theorem resolve?_eq_ofFixed?_of_distance (h : 0 ≤ weekday.toInt ∧ weekday.toInt ≤ 6) :
    resolve? ⟨some weekday, some distance⟩ today =
      Date.ofFixed? (today.weekStart + 7 * distance.toInt + weekday.toInt) := by
  refine Option.ext fun d => ?_
  rw [resolve?_eq_some_iff_weekStart h, Date.ofFixed?_eq_some_iff]

theorem resolve?_eq_some_iff_mem_weekAt (h : 0 ≤ weekday.toInt ∧ weekday.toInt ≤ 6) :
    resolve? ⟨some weekday, some distance⟩ today = some d ↔
      d.fixed ∈ today.weekAt distance.toInt ∧ (d.weekday : Int) = weekday.toInt := by
  rw [resolve?_eq_some_iff_weekStart h, d.cast_weekday, mem_weekAt_and_weekday_iff h]

theorem resolve?_eq_none_iff_mem_weekAt (h : 0 ≤ weekday.toInt ∧ weekday.toInt ≤ 6) :
    resolve? ⟨some weekday, some distance⟩ today = none ↔
      ∃ n ∈ today.weekAt distance.toInt, n % 7 = weekday.toInt ∧ ¬Supported n := by
  rw [resolve?_eq_ofFixed?_of_distance h, Date.ofFixed?_eq_none_iff]
  simp only [← and_assoc, mem_weekAt_and_weekday_iff h, exists_eq_left, Supported]
  omega

/-- A week further on the day of the same name is found. -/
theorem fixed_of_next (h : 0 ≤ weekday.toInt ∧ weekday.toInt ≤ 6)
    (hnext : next.toInt = distance.toInt + 1)
    (hd : resolve? ⟨some weekday, some distance⟩ today = some d)
    (he : resolve? ⟨some weekday, some next⟩ today = some e) : e.fixed = d.fixed + 7 := by
  rw [resolve?_eq_some_iff_weekStart h] at hd he
  omega

/-! ### Weekdays on their own -/

/-- The first day with a weekday lies in this week, or in the next one if today is past it. -/
theorem firstOn_eq_weekStart (hw : 0 ≤ w ∧ w ≤ 6) (today : Date) :
    firstOn w today.fixed =
      today.weekStart + 7 * (if (today.weekday : Int) ≤ w then 0 else 1) + w := by
  have hmod := today.cast_weekday
  rw [firstOn, Date.weekStart]
  split <;> omega

/-- **A weekday on its own** is that of this week, or that of the next one if today is past it. -/
theorem resolve?_plain_eq (h : 0 ≤ weekday.toInt ∧ weekday.toInt ≤ 6) (today : Date) :
    resolve? ⟨some weekday, none⟩ today =
      resolve? ⟨some weekday, some (if (today.weekday : Int) ≤ weekday.toInt then 0 else 1)⟩
        today := by
  have hzero : (0 : Int64).toInt = 0 := rfl
  have hone : (1 : Int64).toInt = 1 := rfl
  rw [resolve?_eq_ofFixed? (by omega), resolve?_eq_ofFixed?_of_distance h, apply_ite Int64.toInt,
    hzero, hone, firstOn_eq_weekStart h]

/-- **A weekday with a distance counts whole weeks.**  It is the day of that name in the week that
lies so many weeks after the week of today, and is missing exactly where the span does not hold this
day.  The next distance leads seven days further.  A weekday on its own means this week, as long as
today is not past it, and otherwise the next. -/
theorem resolve?_counts_weeks (h : 0 ≤ weekday.toInt ∧ weekday.toInt ≤ 6) (today : Date)
    (distance : Int64) :
    today.fixed ∈ today.weekAt 0 ∧
    (∀ d, resolve? ⟨some weekday, some distance⟩ today = some d ↔
      d.fixed ∈ today.weekAt distance.toInt ∧ (d.weekday : Int) = weekday.toInt) ∧
    (resolve? ⟨some weekday, some distance⟩ today = none ↔
      ∃ n ∈ today.weekAt distance.toInt, n % 7 = weekday.toInt ∧ ¬Supported n) ∧
    (∀ next d e, next.toInt = distance.toInt + 1 →
      resolve? ⟨some weekday, some distance⟩ today = some d →
      resolve? ⟨some weekday, some next⟩ today = some e → e.fixed = d.fixed + 7) ∧
    resolve? ⟨some weekday, none⟩ today =
      resolve? ⟨some weekday, some (if (today.weekday : Int) ≤ weekday.toInt then 0 else 1)⟩
        today := by
  refine ⟨today.fixed_mem_weekAt, ?_, resolve?_eq_none_iff_mem_weekAt h, ?_,
    resolve?_plain_eq h today⟩
  · intro d
    exact resolve?_eq_some_iff_mem_weekAt h
  · intro next d e hnext hd he
    exact fixed_of_next h hnext hd he

/-- 4 April 2021, a Sunday. -/
def sunday : Date := ⟨737884, by decide, by decide⟩

/-- On a Saturday the Sunday of the week before is not the latest Sunday, which is in this week. -/
theorem resolve?_counts_weeks_lastSunday :
    (0 ≤ (0 : Int64).toInt ∧ (0 : Int64).toInt ≤ 6) ∧
    resolve? ⟨some 0, some (-1)⟩ saturday = some sunday ∧
    sunday.fixed ∈ saturday.weekAt (-1) ∧ sunday.weekday = 0 ∧
    (∀ e, resolve? ⟨some 0, some 0⟩ saturday = some e → e.fixed = sunday.fixed + 7) ∧
    resolve? ⟨some 0, none⟩ saturday = resolve? ⟨some 0, some 1⟩ saturday := by
  have hindex : 0 ≤ (0 : Int64).toInt ∧ (0 : Int64).toInt ≤ 6 := by decide
  have hfound : resolve? ⟨some 0, some (-1)⟩ saturday = some sunday := by decide
  obtain ⟨-, hweek, -, hnext, hplain⟩ := resolve?_counts_weeks hindex saturday (-1)
  obtain ⟨hmem, -⟩ := (hweek sunday).1 hfound
  exact ⟨hindex, hfound, hmem, rfl, fun e he => hnext 0 sunday e rfl hfound he, hplain⟩

end WeekdayPhrase

end SpokenDate
