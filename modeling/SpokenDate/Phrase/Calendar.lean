/-
Calendar phrases: a month, a day and perhaps a year.

Without a year the phrase means the current one.  Whether the month has such a day is a
separate question, and without a year it is asked of a leap year, so that 29 February
passes.

* **`isPlausible_of_incomplete`**: a phrase that is still being typed is plausible.
-/
import SpokenDate.Calendar.Step
import SpokenDate.Text.Vocabulary
import SpokenDate.Year

namespace SpokenDate

/-- A month, January being 1, a day of the month and a year. -/
structure CalendarPhrase where
  month : Option UInt32
  day : Option UInt32
  year : Option Year
  deriving DecidableEq, Repr

namespace CalendarPhrase

/-- The names of the months. -/
def words : Vocabulary UInt32 :=
  [("january", 1), ("february", 2), ("march", 3), ("april", 4), ("may", 5), ("june", 6),
    ("july", 7), ("august", 8), ("september", 9), ("october", 10), ("november", 11),
    ("december", 12), ("jan", 1), ("feb", 2), ("mar", 3), ("apr", 4), ("jun", 6),
    ("jul", 7), ("aug", 8), ("sep", 9), ("sept", 9), ("oct", 10), ("nov", 11), ("dec", 12)]

/-- The leap year by which a month and a day without a year are judged. -/
def validationYear : Int32 := 2012

/-- The year of the phrase, or `default` where it names none. -/
def yearOr? (phrase : CalendarPhrase) (default : Int32) : Option Int32 :=
  match phrase.year with
  | none => some default
  | some token => token.value?

/-- The date of the month and day in the given year, where days past the end of the month
roll over into the next. -/
def inYear? (year : Int32) (month day : UInt32) : Option Date :=
  Date.rolled? year (Int64.ofInt ((month.toNat : Int) - 1)) (Int64.ofNat day.toNat)

/-- The day that is meant. -/
def resolve? (phrase : CalendarPhrase) (today : Date) : Option Date := do
  let year ← phrase.yearOr? today.yearWord
  inYear? year (← phrase.month) (← phrase.day)

/-- The day lies in the month that is named, as far as the phrase is complete.  The test
is that the date did not roll over into another month. -/
def isPlausible (phrase : CalendarPhrase) : Bool :=
  match phrase.month, phrase.day with
  | some month, some day =>
    ((phrase.yearOr? validationYear).bind fun year => inYear? year month day).any fun date =>
      date.month = month.toNat
  | _, _ => true

theorem isPlausible_of_incomplete {phrase : CalendarPhrase}
    (h : phrase.month = none ∨ phrase.day = none) : phrase.isPlausible = true := by
  obtain ⟨month, day, year⟩ := phrase
  rcases h with rfl | rfl
  · rfl
  · cases month <;> rfl

end CalendarPhrase

end SpokenDate
