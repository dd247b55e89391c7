/-
What single values mean.

A value is read by what it is expected to be: an integer, a month, a day of the month, a
weekday, a unit, a year or a starting point.  Each of these has a function that gives the
meaning of a value, if it has one.

* **`integer?_text`**: a text is an integer exactly when it is digits, with a minus sign
  before them or without one, whose value a word can hold;
* **`day?_text`**: a text is a day of the month exactly when it is digits with at most one
  ordinal suffix.
-/
import SpokenDate.Fields.Basic
import SpokenDate.Phrase.Basic

namespace SpokenDate.Value

/-- Integers may also be given as digits. -/
def integer? : Value → Option Int64
  | integer n => some n
  | text s => (Decimal.integer? s.toList).bind Checked.int64?
  | _ => none

/-- A number that counts from zero, such as that of a month. -/
def unsigned? (value : Value) : Option UInt32 :=
  value.integer?.bind fun n => Checked.uint32? n.toInt

/-- A number that a word of 32 bits can hold, such as that of a year. -/
def short? (value : Value) : Option Int32 :=
  value.integer?.bind fun n => Checked.int32? n.toInt

/-- The name of a month, or its number. -/
def month? (value : Value) : Option UInt32 :=
  (value.text?.bind CalendarPhrase.words.meaning?).or value.unsigned?

/-- The number of a day, or digits that an ordinal suffix may follow, as in `22nd`. -/
def day? : Value → Option UInt32
  | text s => (Decimal.ordinal? (lower s)).bind fun n => Checked.uint32? n
  | value => value.unsigned?

/-- The name of a weekday, or any index. -/
def weekday? (value : Value) : Option Int64 :=
  (value.text?.bind WeekdayPhrase.words.meaning?).or value.integer?

/-- The name of a unit. -/
def unit? (value : Value) : Option CalendarUnit := value.text?.bind CalendarUnit.ofName?

/-- A year in full, or digits that name one. -/
def year? : Value → Option Year
  | integer n => (Checked.int32? n.toInt).map .full
  | text s => if (Year.expand? s).isSome then some (.digits s) else none
  | _ => none

/-- The year that a value counts from the start of a century.  A sum that no word of 32 bits can
hold is no year, and its value is refused like one that is no number; an unchecked sum would wrap
around there, or stop the program. -/
def yearSince? (century : Int) (value : Value) : Option Year := do
  let years ← value.short?
  let year ← Checked.int32? (century + years.toInt)
  pure (.full year)

/-- The word `now` in any case of its letters, or a date. -/
def point? : Value → Option Point
  | text s => if lower s = "now".toList then some .now else none
  | date d => some (.date d)
  | _ => none

theorem integer?_text {s : String} {n : Int64} :
    (text s).integer? = some n ↔ Decimal.integer? s.toList = some n.toInt := by
  rw [integer?]
  constructor
  · intro h
    obtain ⟨m, hm, h⟩ := Option.bind_eq_some_iff.1 h
    rw [hm, Checked.int64?_eq_some_iff.1 h]
  · intro h
    rw [h, Option.bind_some, Checked.int64?_toInt]

theorem day?_text {s : String} {n : UInt32} :
    (text s).day? = some n ↔ Decimal.ordinal? (lower s) = some n.toNat := by
  rw [day?]
  constructor
  · intro h
    obtain ⟨m, hm, h⟩ := Option.bind_eq_some_iff.1 h
    rw [hm, ← Int.ofNat_inj.1 (Checked.uint32?_eq_some_iff.1 h)]
  · intro h
    rw [h, Option.bind_some, Checked.uint32?_toNat]

end SpokenDate.Value
