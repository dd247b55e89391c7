/-
Phrases for dates, and the dates they stand for.

A phrase is nothing yet, an offset from today, a weekday, a calendar date, or a shift
that starts from a point or from another phrase.  Only the innermost part of such a chain
looks at today.

* **`resolve?_fromPhrase`**: a chain resolves its base first and shifts what it finds;
* **`keeps_fromPhrase`**: a chain is kept where chains are allowed and its base is kept,
  whatever the shift.
-/
import SpokenDate.Options
import SpokenDate.Phrase.Calendar
import SpokenDate.Phrase.Offset
import SpokenDate.Phrase.Weekday

namespace SpokenDate

/-- A point that a shift can start from. -/
inductive Point where
  | now
  | date (d : Date)
  deriving DecidableEq, Repr

/-- What a phrase says about the date that is meant. -/
inductive Phrase where
  /-- Nothing has been said yet. -/
  | empty
  | offset (offset : Offset)
  | weekday (phrase : WeekdayPhrase)
  | calendar (phrase : CalendarPhrase)
  /-- A shift from a point, which may still be missing. -/
  | fromPoint (shift : Shift) (point : Option Point)
  /-- A shift from the date that another phrase stands for. -/
  | fromPhrase (shift : Shift) (base : Phrase)
  deriving DecidableEq

/-- The date of a point. -/
def Point.resolve (today : Date) : Point → Date
  | now => today
  | date d => d

namespace Phrase

/-- The short name of the form that a phrase has. -/
def shape : Phrase → String
  | empty => "empty"
  | offset _ => "relative"
  | weekday _ => "weekday"
  | calendar _ => "calendar"
  | fromPoint _ _ => "anchored"
  | fromPhrase _ _ => "anchored"

/-- The date that a phrase stands for, if it is complete and the date is supported. -/
def resolve? (today : Date) : Phrase → Option Date
  | empty => none
  | offset o => o.resolve? today
  | weekday w => w.resolve? today
  | calendar c => c.resolve? today
  | fromPoint shift point => point.bind fun p => shift.from? (p.resolve today)
  | fromPhrase shift base => (base.resolve? today).bind shift.from?

/-- Whether the phrase is worth keeping as a candidate. -/
def keeps (options : Options) : Phrase → Bool
  | empty => true
  | offset o => options.allowPast || !o.pointsToPast
  | weekday _ => true
  | calendar c => c.isPlausible
  | fromPoint _ _ => options.allowChains
  | fromPhrase _ base => options.allowChains && base.keeps options

theorem resolve?_fromPhrase (today : Date) (shift : Shift) (base : Phrase) :
    (fromPhrase shift base).resolve? today = (base.resolve? today).bind shift.from? := rfl

theorem keeps_fromPhrase (options : Options) (shift : Shift) (base : Phrase) :
    (fromPhrase shift base).keeps options = (options.allowChains && base.keeps options) := rfl

end Phrase

end SpokenDate
