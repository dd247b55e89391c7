/-
The days that weekday phrases mean.

A weekday on its own is the first such day from today on.  Day numbers modulo seven are weekdays,
so that day is at most six days away, whatever integer the index is, and only at the end of the
span may it be missing.  All else follows from being the first: from that day on the same day is
the first again, and from a later day on the first is no earlier.

* **`isLeast_firstOn`**: the first of the days from a day on that have a weekday;
* **`WeekdayPhrase.resolve?_eq_ofFixed?`**: a weekday on its own is this day, if the span holds it;
* **`WeekdayPhrase.resolve?_is_nearest`**: what this says about dates.
-/
import Mathlib.Order.Bounds.Basic
import SpokenDate.Phrase.Weekday

namespace SpokenDate

variable {weekday : Int64} {today d : Date} {w : Int}

/-! ### The first day with a weekday -/

/-- The days from `start` on that have the weekday with index `w`, indices being told modulo
seven. -/
def daysOn (w start : Int) : Set Int := {n | start ≤ n ∧ n % 7 = w % 7}

/-- The same of dates. -/
def datesOn (w : Int) (start : Date) : Set Date :=
  {d | start ≤ d ∧ (d.weekday : Int) = w % 7}

def firstOn (w start : Int) : Int := start + (w - start) % 7

/-- **The first day with a weekday** is the one that lies at most six days ahead. -/
theorem isLeast_firstOn (w start : Int) : IsLeast (daysOn w start) (firstOn w start) := by
  constructor
  · show start ≤ firstOn w start ∧ firstOn w start % 7 = w % 7
    simp only [firstOn]
    omega
  · rintro n ⟨hle, hmod⟩
    simp only [firstOn]
    omega

theorem mem_datesOn_iff : d ∈ datesOn w today ↔ d.fixed ∈ daysOn w today.fixed := by
  show today ≤ d ∧ (d.weekday : Int) = w % 7 ↔ today.fixed ≤ d.fixed ∧ d.fixed % 7 = w % 7
  rw [d.cast_weekday, Date.le_iff]

/-- The first of the dates is the first of the days, if that is a date. -/
theorem ofFixed?_firstOn_eq_some_iff :
    Date.ofFixed? (firstOn w today.fixed) = some d ↔ IsLeast (datesOn w today) d := by
  obtain ⟨hmem, hleast⟩ := isLeast_firstOn w today.fixed
  rw [Date.ofFixed?_eq_some_iff]
  constructor
  · intro h
    refine ⟨mem_datesOn_iff.2 (h ▸ hmem), ?_⟩
    intro e he
    rw [Date.le_iff, h]
    exact hleast (mem_datesOn_iff.1 he)
  · rintro ⟨hd, hfirst⟩
    have hle := hleast (mem_datesOn_iff.1 hd)
    -- a day between two dates is a date
    have hspan : firstDay ≤ firstOn w today.fixed ∧ firstOn w today.fixed ≤ lastDay :=
      ⟨Int.le_trans today.firstDay_le hmem.1, Int.le_trans hle d.le_lastDay⟩
    have hge : d ≤ ⟨firstOn w today.fixed, hspan.1, hspan.2⟩ :=
      hfirst (mem_datesOn_iff.2 hmem)
    exact Int.le_antisymm hge hle

/-- The first of the dates is missing where the first of the days lies past the end of the span. -/
theorem ofFixed?_firstOn_eq_none_iff :
    Date.ofFixed? (firstOn w today.fixed) = none ↔
      ∃ n, IsLeast (daysOn w today.fixed) n ∧ lastDay < n := by
  have hleast := isLeast_firstOn w today.fixed
  have hle := Int.le_trans today.firstDay_le hleast.1.1
  rw [Date.ofFixed?_eq_none_iff]
  constructor
  · intro h
    exact ⟨_, hleast, h.resolve_left (Int.not_lt.2 hle)⟩
  · rintro ⟨n, hn, hlast⟩
    exact .inr (hleast.unique hn ▸ hlast)

namespace WeekdayPhrase

/-! ### A weekday on its own -/

/-- The words of an index and a weekday have room for their difference, unless the index is one of
the six smallest. -/
theorem offset?_eq_some (h : -0x8000000000000000 + 6 ≤ weekday.toInt) (today : Date) :
    ∃ k : Int64, offset? ⟨some weekday, none⟩ today = some k ∧
      k.toInt = (weekday.toInt - today.fixed) % 7 := by
  have hlt := today.weekday_lt
  have hmod := today.cast_weekday
  have hhi := weekday.toInt_lt
  have hcurrent : (Int64.ofNat today.weekday).toInt = today.weekday :=
    Int64.toInt_ofNat_of_lt (by omega)
  have hword := Int64.toInt_ofInt_of_le (n := weekday.toInt - today.weekday) (by omega) (by omega)
  have hahead : Checked.sub? weekday (Int64.ofNat today.weekday) =
      some (Int64.ofInt (weekday.toInt - today.weekday)) := by
    rw [Checked.sub?_eq_some_iff, hcurrent, hword]
  refine ⟨Int64.ofInt ((weekday.toInt - today.weekday) % 7), ?_, ?_⟩
  · simp only [offset?, bind, Option.bind_some, hahead, hword]
  · rw [Int64.toInt_ofInt_of_le (by omega) (by omega)]
    omega

/-- **A weekday on its own is the first such day**, if the span holds it. -/
theorem resolve?_eq_ofFixed? (h : -0x8000000000000000 + 6 ≤ weekday.toInt) (today : Date) :
    resolve? ⟨some weekday, none⟩ today =
      Date.ofFixed? (firstOn weekday.toInt today.fixed) := by
  obtain ⟨k, hoffset, hk⟩ := offset?_eq_some h today
  rw [resolve?, hoffset]
  show today.addDays? k = _
  rw [Date.addDays?_eq_ofFixed?, hk, firstOn]

/-- **A weekday on its own is the nearest one from today on.**  It lies at most six days ahead, and
is missing only where the first such day lies past the end of the span.  The date that is found
stands for itself, and a later today leads to no earlier date. -/
theorem resolve?_is_nearest (h : -0x8000000000000000 + 6 ≤ weekday.toInt) (today : Date) :
    (∃ k : Int64, offset? ⟨some weekday, none⟩ today = some k ∧ 0 ≤ k.toInt ∧ k.toInt ≤ 6) ∧
    (∀ r, resolve? ⟨some weekday, none⟩ today = some r ↔
      IsLeast (datesOn weekday.toInt today) r) ∧
    (resolve? ⟨some weekday, none⟩ today = none ↔
      ∃ n, IsLeast (daysOn weekday.toInt today.fixed) n ∧ lastDay < n) ∧
    (∀ r, resolve? ⟨some weekday, none⟩ today = some r →
      resolve? ⟨some weekday, none⟩ r = some r) ∧
    ∀ later r s, today ≤ later → resolve? ⟨some weekday, none⟩ today = some r →
      resolve? ⟨some weekday, none⟩ later = some s → r ≤ s := by
  have hfirst : ∀ start r, resolve? ⟨some weekday, none⟩ start = some r ↔
      IsLeast (datesOn weekday.toInt start) r := by
    intro start r
    rw [resolve?_eq_ofFixed? h, ofFixed?_firstOn_eq_some_iff]
  refine ⟨?_, hfirst today, ?_, ?_, ?_⟩
  · obtain ⟨k, hoffset, hk⟩ := offset?_eq_some h today
    exact ⟨k, hoffset, by omega, by omega⟩
  · rw [resolve?_eq_ofFixed? h, ofFixed?_firstOn_eq_none_iff]
  · intro r hr
    obtain ⟨⟨-, hweekday⟩, -⟩ := (hfirst today r).1 hr
    exact (hfirst r r).2 ⟨⟨Int.le_refl _, hweekday⟩, fun e he => he.1⟩
  · intro later r s hlater hr hs
    obtain ⟨⟨hle, hweekday⟩, -⟩ := (hfirst later s).1 hs
    exact ((hfirst today r).1 hr).2 ⟨Int.le_trans hlater hle, hweekday⟩

/-- The smallest index that all weekdays leave room for, which is that of a Friday. -/
def lowestFriday : Int64 := Int64.ofInt (-0x8000000000000000 + 6)

/-- 17 April 2021, a Saturday. -/
def saturday : Date := ⟨737897, by decide, by decide⟩

/-- 23 April 2021, a Friday. -/
def friday : Date := ⟨737903, by decide, by decide⟩

/-- On a Saturday the next Friday is six days away. -/
theorem resolve?_is_nearest_lowestFriday :
    -0x8000000000000000 + 6 ≤ lowestFriday.toInt ∧
    resolve? ⟨some lowestFriday, none⟩ saturday = some friday ∧
    IsLeast (datesOn lowestFriday.toInt saturday) friday ∧
    resolve? ⟨some lowestFriday, none⟩ friday = some friday := by
  have hindex : -0x8000000000000000 + 6 ≤ lowestFriday.toInt := by decide
  have hfound : resolve? ⟨some lowestFriday, none⟩ saturday = some friday := by decide
  obtain ⟨-, hfirst, -, hagain, -⟩ := resolve?_is_nearest hindex saturday
  exact ⟨hindex, hfound, (hfirst friday).1 hfound, hagain friday hfound⟩

end WeekdayPhrase

end SpokenDate
