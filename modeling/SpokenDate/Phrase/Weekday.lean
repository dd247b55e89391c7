/-
Weekday phrases.

A weekday on its own is the next such day from today on.  With a distance it is the
weekday of the week that lies that many weeks ahead, weeks running from Sunday to
Saturday.

* **`resolve?_eq_some_iff`**: a weekday phrase lies its offset away from today.
-/
import SpokenDate.Calendar.Step
import SpokenDate.Text.Vocabulary

namespace SpokenDate

/-- A weekday counted from Sunday, and a distance in weeks: none for `friday`, 0 for
`this friday`, 1 for `next friday`, -1 for `last friday`. -/
structure WeekdayPhrase where
  weekday : Option Int64
  distance : Option Int64
  deriving DecidableEq, Repr

namespace WeekdayPhrase

/-- The names of the weekdays. -/
def words : Vocabulary Int64 :=
  [("sunday", 0), ("monday", 1), ("tuesday", 2), ("wednesday", 3), ("thursday", 4),
    ("friday", 5), ("saturday", 6), ("sun", 0), ("mon", 1), ("tue", 2), ("tues", 2),
    ("wed", 3), ("thu", 4), ("thur", 4), ("thurs", 4), ("fri", 5), ("sat", 6)]

/-- The number of days from today to the day that is meant. -/
def offset? (phrase : WeekdayPhrase) (today : Date) : Option Int64 := do
  let ahead ← Checked.sub? (← phrase.weekday) (Int64.ofNat today.weekday)
  match phrase.distance with
  | none => some (Int64.ofInt (ahead.toInt % 7))
  | some distance => Checked.add? (← Checked.mul? distance 7) ahead

/-- The day that is meant. -/
def resolve? (phrase : WeekdayPhrase) (today : Date) : Option Date := do
  today.addDays? (← phrase.offset? today)

theorem resolve?_eq_some_iff {phrase : WeekdayPhrase} {today date : Date} :
    phrase.resolve? today = some date ↔
      ∃ offset, phrase.offset? today = some offset ∧
        date.fixed = today.fixed + offset.toInt := by
  rw [resolve?]
  refine Option.bind_eq_some_iff.trans ?_
  simp only [Date.addDays?_eq_some_iff]

end WeekdayPhrase

end SpokenDate
