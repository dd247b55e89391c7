/-
Offsets from today.

* **`duration?_counted`**: what a complete counted offset adds to today: its duration, with
  every unit negated where the direction is negative.
-/
import SpokenDate.Phrase.Shift

namespace SpokenDate

/-- A phrase that counts from today. -/
inductive Offset where
  /-- A day with a name of its own: `today`, `tomorrow`, `yesterday`. -/
  | named (duration : Duration)
  /-- A counted duration: `in 3 weeks`, `3 days ago`. -/
  | counted (shift : Shift)
  /-- The neighbour of a unit: `next month` with step 1, `last year` with step -1. -/
  | adjacent (unit : Option CalendarUnit) (step : Option Int64)
  deriving DecidableEq, Repr

namespace Offset

/-- The duration that is added to today, unless a part of the phrase is missing.  A
direction only turns the duration round and never multiplies it. -/
def duration? : Offset → Option Duration
  | named duration => if duration.isEmpty then none else some duration
  | counted ⟨some duration, some direction⟩ =>
    if direction.toInt < 0 then duration.scale? (-1) else some duration
  | adjacent (some unit) (some step) => some (.single unit step)
  | _ => none

/-- The date that the offset leads to. -/
def resolve? (offset : Offset) (today : Date) : Option Date := do
  (← offset.duration?).addTo? today

/-- The offset can only look backwards: a named day in the past, or a count `ago`.
`Last week` is not among these, being the counterpart of `next week`. -/
def pointsToPast : Offset → Bool
  | named duration => duration.pointsToPast
  | counted shift => shift.direction.any fun direction => direction.toInt < 0
  | adjacent _ _ => false

theorem duration?_counted (duration : Duration) (direction : Int64) :
    (counted ⟨some duration, some direction⟩).duration? =
      if direction.toInt < 0 then duration.scale? (-1) else some duration := rfl

end Offset

end SpokenDate
