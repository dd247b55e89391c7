/-
Reading fields as a phrase.

The fields of a phrase hold a map called `relative`, a map called `absolute`, or the
fields of a shift, whose `date` may hold the fields of another phrase.  They are read from
the outside to the inside and at each level in a fixed order, so the first fault in that
order is the one reported.

* **`ofFields_nil`**: no fields at all are the empty phrase;
* **`readWithin_zero`**, **`readWithin_succ`**: a level of nesting spends one of the levels
  that are left, and where none is left any nested phrase is refused unseen.

Design notes: `readLevel` reads one level and leaves the nested phrase to its argument, so
the recursion is on the number of levels left and the rest of the reader does not mention
depth.
-/
import SpokenDate.Reading.Field

namespace SpokenDate

/-- The counts of a duration. -/
def Duration.ofFields (fields : Fields) : Except ReadError Duration := do
  let days ← fields.read "days" .integer
  let weeks ← fields.read "weeks" .integer
  let months ← fields.read "months" .integer
  let years ← fields.read "years" .integer
  pure { days, weeks, months, years }

/-- The parts of a shift, apart from where it starts. -/
def Shift.ofFields (fields : Fields) : Except ReadError Shift := do
  let units ← fields.read "duration" .map
  let duration ← units.mapM Duration.ofFields
  let direction ← fields.read "direction" .integer
  pure { duration, direction }

namespace Offset

def readNamed (fields : Fields) : Except ReadError Offset := do
  return .named (← Duration.ofFields fields)

def readCounted (fields : Fields) : Except ReadError Offset := do
  return .counted (← Shift.ofFields fields)

def readAdjacent (fields : Fields) : Except ReadError Offset := do
  let unit ← fields.read "type" .unit
  let step ← fields.read "num" .integer
  return .adjacent unit step

/-- The forms of an offset by the fields they take. -/
def groups : List (FieldGroup Offset) :=
  [⟨["duration", "direction"], readCounted⟩, ⟨["num", "type"], readAdjacent⟩,
    ⟨["days", "weeks", "months", "years"], readNamed⟩]

/-- An offset, which without any field of its own is a named one that says nothing. -/
def ofFields (fields : Fields) : Except ReadError Offset := fields.readSole groups readNamed

end Offset

def WeekdayPhrase.ofFields (fields : Fields) : Except ReadError WeekdayPhrase := do
  let weekday ← fields.read "weekday" .weekday
  let distance ← fields.read "distance" .integer
  pure { weekday, distance }

/-- The centuries that the fields of a year phrase count from, the first that is present
being the one that is read. -/
def Year.centuries : List (String × Int) := [("year20", 2000), ("year19", 1900), ("year", 0)]

/-- A year in the fields that place it in a century, if it is there at all. -/
def Year.ofFields (fields : Fields) : Except ReadError (Option Year) :=
  match centuries.find? fun (name, _) => fields.contains name with
  | none => .ok none
  | some (name, century) => fields.read name (.yearSince century)

/-- The year, a single value or fields of its own. -/
def CalendarPhrase.readYear (fields : Fields) : Except ReadError (Option Year) :=
  match fields.get? "year" with
  | some (.map phrase) => Year.ofFields phrase
  | _ => fields.read "year" .year

def CalendarPhrase.ofFields (fields : Fields) : Except ReadError CalendarPhrase := do
  let month ← fields.read "month" .month
  let day ← fields.read "day" .day
  let year ← readYear fields
  pure { month, day, year }

namespace Phrase

def readWeekday (fields : Fields) : Except ReadError Phrase := do
  return .weekday (← WeekdayPhrase.ofFields fields)

def readCalendar (fields : Fields) : Except ReadError Phrase := do
  return .calendar (← CalendarPhrase.ofFields fields)

def readOffset (fields : Fields) : Except ReadError Phrase := do
  return .offset (← Offset.ofFields fields)

/-- The forms of an absolute date by the fields they take. -/
def absoluteGroups : List (FieldGroup Phrase) :=
  [⟨["weekday", "distance"], readWeekday⟩, ⟨["month", "day", "year"], readCalendar⟩]

/-- An absolute date, which without any field of its own is a calendar date that says
nothing. -/
def readAbsolute (fields : Fields) : Except ReadError Phrase :=
  fields.readSole absoluteGroups readCalendar

/-- A shift and where it starts, where fields are read by `nested`. -/
def readShifted (nested : Fields → Except ReadError Phrase) (fields : Fields) :
    Except ReadError Phrase := do
  let shift ← Shift.ofFields fields
  match fields.get? "date" with
  | some (.map base) => return .fromPhrase shift (← nested base)
  | _ => return .fromPoint shift (← fields.read "date" .point)

/-- The fields of a shift. -/
def shiftNames : List String := ["duration", "direction", "date"]

/-- One level of a phrase, where the fields of a nested phrase are read by `nested`. -/
def readLevel (nested : Fields → Except ReadError Phrase) (fields : Fields) :
    Except ReadError Phrase :=
  if fields.isEmpty then
    pure .empty
  else do
    let relative ← fields.read "relative" .map
    let absolute ← fields.read "absolute" .map
    match relative, absolute, fields.containsAny shiftNames with
    | some inner, none, false => readOffset inner
    | none, some inner, false => readAbsolute inner
    | none, none, true => readShifted nested fields
    | none, none, false => throw (.noDateFields fields.names)
    | _, _, _ => throw .exclusiveForms

/-- A phrase inside which at most `levels` others are nested, one in the other.  What is
nested deeper is refused in the name of `limit`. -/
def readWithin (limit : Nat) : (levels : Nat) → Fields → Except ReadError Phrase
  | 0, fields => readLevel (fun _ => throw (.tooDeep limit)) fields
  | levels + 1, fields => readLevel (readWithin limit levels) fields

/-- The phrase that the fields hold. -/
def ofFields (fields : Fields) (limit : Nat) : Except ReadError Phrase :=
  readWithin limit limit fields

theorem readWithin_zero (limit : Nat) (fields : Fields) :
    readWithin limit 0 fields = readLevel (fun _ => throw (.tooDeep limit)) fields := rfl

theorem readWithin_succ (limit levels : Nat) (fields : Fields) :
    readWithin limit (levels + 1) fields = readLevel (readWithin limit levels) fields := rfl

theorem ofFields_nil (limit : Nat) : ofFields .nil limit = .ok .empty := by
  cases limit <;> rfl

end Phrase

end SpokenDate
