/-
Chains of shifts, and the day that they are seen from.

The shifts of a chain never look at today.  So a chain stands for the same date on every day
on which its base does, and once the base is known the chain might as well start from the
date that it stands for.

* **`around`**, **`base`**: a chain in front of a phrase, and the phrase behind all chains;
* **`resolve?_around_congr`**: a chain depends on its base alone;
* **`WeekdayPhrase.resolve?_eq_some_iff_weekStart`**: a weekday with a distance depends on the
  week of today alone;
* **`resolve?_eq_of_base`**: what a whole phrase makes of two days.
-/
import SpokenDate.Proofs.Exactness

namespace SpokenDate

variable {t₁ t₂ today d : Date}

/-- The day number of the Sunday that begins the week of a date. -/
def Date.weekStart (d : Date) : Int := d.fixed - d.weekday

/-- A weekday with a distance lies in the week that is so many weeks away from this one. -/
theorem WeekdayPhrase.resolve?_eq_some_iff_weekStart {weekday distance : Int64}
    (h : 0 ≤ weekday.toInt ∧ weekday.toInt ≤ 6) :
    resolve? ⟨some weekday, some distance⟩ today = some d ↔
      d.fixed = today.weekStart + 7 * distance.toInt + weekday.toInt := by
  have hregular : ∀ n, some weekday = some n → 0 ≤ n.toInt ∧ n.toInt ≤ 6 := by
    rintro n ⟨⟩
    exact h
  rw [WeekdayPhrase.resolve?_iff_leads hregular]
  simp only [days?, Option.map_some, Option.some_inj, exists_eq_left', leads_days,
    Date.weekStart, today.cast_weekday]
  constructor <;> intro hd <;> omega

namespace Phrase

/-- Shifts in front of a phrase, the outermost first. -/
def around (shifts : List Shift) (inner : Phrase) : Phrase := shifts.foldr .fromPhrase inner

/-- The shifts in front of the base of a phrase, the outermost first. -/
def shifts : Phrase → List Shift
  | fromPhrase shift inner => shift :: inner.shifts
  | _ => []

/-- What is left of a phrase without the shifts in front of it. -/
def base : Phrase → Phrase
  | fromPhrase _ inner => inner.base
  | phrase => phrase

/-- A base that takes the same from both days: a date that is given, a calendar date whose
year is given or the same, or a weekday counted from the same week. -/
def ReadsSame (t₁ t₂ : Date) : Phrase → Prop
  | fromPoint _ (some (.date _)) => True
  | calendar c => c.year.isSome ∨ t₁.year = t₂.year
  | weekday w =>
    (∃ n, w.weekday = some n ∧ 0 ≤ n.toInt ∧ n.toInt ≤ 6) ∧ w.distance.isSome ∧
      t₁.weekStart = t₂.weekStart
  | _ => False

theorem around_base (phrase : Phrase) : around phrase.shifts phrase.base = phrase := by
  induction phrase with
  | fromPhrase shift inner ih => exact congrArg (fromPhrase shift) ih
  | _ => rfl

/-- **A chain depends on its base alone.** -/
theorem resolve?_around_congr {first second : Phrase} (shifts : List Shift)
    (h : first.resolve? t₁ = second.resolve? t₂) :
    (around shifts first).resolve? t₁ = (around shifts second).resolve? t₂ := by
  induction shifts with
  | nil => exact h
  | cons shift shifts ih => exact congrArg (Option.bind · shift.from?) ih

theorem resolve?_around_eq_none {inner : Phrase} (shifts : List Shift)
    (h : inner.resolve? today = none) : (around shifts inner).resolve? today = none := by
  induction shifts with
  | nil => exact h
  | cons shift shifts ih => exact congrArg (Option.bind · shift.from?) ih

theorem resolve?_calendar_congr {c : CalendarPhrase} (h : (calendar c).ReadsSame t₁ t₂) :
    (calendar c).resolve? t₁ = (calendar c).resolve? t₂ := by
  have hyear : c.yearOr? t₁.yearWord = c.yearOr? t₂.yearWord := by
    rcases h with hsome | hyear
    · obtain ⟨token, htoken⟩ := Option.isSome_iff_exists.1 hsome
      simp only [CalendarPhrase.yearOr?, htoken]
    · rw [Date.yearWord, Date.yearWord, hyear]
  simp only [resolve?, CalendarPhrase.resolve?, hyear]

theorem resolve?_weekday_congr {w : WeekdayPhrase} (h : (weekday w).ReadsSame t₁ t₂) :
    (weekday w).resolve? t₁ = (weekday w).resolve? t₂ := by
  obtain ⟨index, distance⟩ := w
  obtain ⟨⟨n, rfl, hn⟩, hdistance, hweek⟩ := h
  obtain ⟨distance, rfl⟩ := Option.isSome_iff_exists.1 hdistance
  refine Option.ext fun d => ?_
  rw [resolve?, resolve?, WeekdayPhrase.resolve?_eq_some_iff_weekStart hn,
    WeekdayPhrase.resolve?_eq_some_iff_weekStart hn, hweek]

theorem resolve?_congr_of_readsSame {phrase : Phrase} (h : phrase.ReadsSame t₁ t₂) :
    phrase.resolve? t₁ = phrase.resolve? t₂ := by
  match phrase with
  | fromPoint shift (some (.date d)) => rfl
  | calendar c => exact resolve?_calendar_congr h
  | weekday w => exact resolve?_weekday_congr h

/-- **Today enters a chain through its base only.**  A chain of shifts starts from the date that
the phrase inside it stands for, and from there on no day matters.  So two days on which the base
reads the same make the same of the whole phrase. -/
theorem resolve?_eq_of_base (t₁ t₂ : Date) :
    (∀ (outer : List Shift) (shift : Shift) (inner : Phrase),
      (∀ d, inner.resolve? t₁ = some d →
        (around outer (fromPhrase shift inner)).resolve? t₁ =
          (around outer (fromPoint shift (some (.date d)))).resolve? t₂) ∧
      (inner.resolve? t₁ = none →
        (around outer (fromPhrase shift inner)).resolve? t₁ = none)) ∧
    ∀ phrase : Phrase, phrase.base.ReadsSame t₁ t₂ →
      phrase.resolve? t₁ = phrase.resolve? t₂ := by
  constructor
  · intro outer shift inner
    constructor
    · intro d hd
      refine resolve?_around_congr outer ?_
      rw [resolve?_fromPhrase, hd]
      rfl
    · intro hnone
      refine resolve?_around_eq_none outer ?_
      rw [resolve?_fromPhrase, hnone]
      rfl
  · intro phrase h
    rw [← around_base phrase]
    exact resolve?_around_congr phrase.shifts (resolve?_congr_of_readsSame h)

/-- Two weeks before the day after a first of March. -/
def beforeFirstOfMarch : Phrase :=
  around [⟨some (.single .week 2), some (-1)⟩, ⟨some (.single .day 1), some 1⟩]
    (calendar ⟨some 3, some 1, none⟩)

/-- On 14 April as on 31 January 2021, this is 16 February 2021. -/
example :
    (beforeFirstOfMarch.resolve? ⟨737894, by decide, by decide⟩).map Date.atMidnight =
      some ⟨2021, 2, 16, 0, 0, 0⟩ ∧
    beforeFirstOfMarch.resolve? ⟨737821, by decide, by decide⟩ =
      beforeFirstOfMarch.resolve? ⟨737894, by decide, by decide⟩ := by
  decide +kernel

end Phrase

end SpokenDate
