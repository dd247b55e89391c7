/-
Shifts: a duration before or after something.

A shift that is still being typed may lack its duration or its direction, and then it
leads nowhere.

* **`from?_eq_none`**: an incomplete shift leads nowhere.
-/
import SpokenDate.Duration

namespace SpokenDate

/-- A duration and its direction, 1 for `after` and -1 for `before`. -/
structure Shift where
  duration : Option Duration
  direction : Option Int64
  deriving DecidableEq, Repr

namespace Shift

/-- The date that `count` units in the given direction lead to.  A week is turned into
days before the direction is taken into account. -/
def stepFrom? (start : Date) (unit : CalendarUnit) (count direction : Int64) : Option Date :=
  match unit with
  | .day => do start.addDays? (← Checked.mul? count direction)
  | .week => do start.addDays? (← Checked.mul? (← Checked.mul? count 7) direction)
  | .month => do start.addMonths? (← Checked.mul? count direction)
  | .year => do start.addYears? (← Checked.mul? count direction)

/-- The date that the shift leads to from `start`.  Only the leading unit of its duration
counts, and a duration without one leads to `start` itself. -/
def from? (shift : Shift) (start : Date) : Option Date := do
  let duration ← shift.duration
  let direction ← shift.direction
  match duration.leading? with
  | none => some start
  | some (unit, count) => stepFrom? start unit count direction

theorem from?_eq_none {shift : Shift} {start : Date}
    (h : shift.duration = none ∨ shift.direction = none) : shift.from? start = none := by
  obtain ⟨duration, direction⟩ := shift
  rcases h with rfl | rfl
  · rfl
  · cases duration <;> rfl

end Shift

end SpokenDate
