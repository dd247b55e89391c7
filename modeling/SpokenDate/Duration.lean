/-
Durations: counts of days, weeks, months and years.

A unit that is not mentioned stays absent, which is more than a count of zero: a duration
without any unit says nothing at all.  The units are added to a date one after the other,
days first and years last, each from where the one before it arrived.

* **`pointsToPast_iff`**: a duration points to the past exactly when some unit is counted
  negatively;
* **`scale?_one`**: scaling by one changes nothing and always succeeds.
-/
import SpokenDate.Calendar.Step
import SpokenDate.Text.Vocabulary

namespace SpokenDate

/-- The units that durations are counted in. -/
inductive CalendarUnit where
  | day
  | week
  | month
  | year
  deriving DecidableEq, Repr

/-- The names of the units, singular and plural. -/
def CalendarUnit.words : Vocabulary CalendarUnit :=
  [("day", .day), ("days", .day), ("week", .week), ("weeks", .week),
    ("month", .month), ("months", .month), ("year", .year), ("years", .year)]

def CalendarUnit.ofName? (name : String) : Option CalendarUnit := words.meaning? name

/-- How many of each unit, where a unit may be absent. -/
structure Duration where
  days : Option Int64
  weeks : Option Int64
  months : Option Int64
  years : Option Int64
  deriving DecidableEq, Repr

namespace Duration

/-- The duration that mentions no unit. -/
def empty : Duration := ⟨none, none, none, none⟩

/-- The duration that counts one unit only. -/
def single (unit : CalendarUnit) (count : Int64) : Duration :=
  match unit with
  | .day => { empty with days := some count }
  | .week => { empty with weeks := some count }
  | .month => { empty with months := some count }
  | .year => { empty with years := some count }

/-- The counts, from days to years. -/
def counts (duration : Duration) : List (Option Int64) :=
  [duration.days, duration.weeks, duration.months, duration.years]

/-- No unit is mentioned. -/
def isEmpty (duration : Duration) : Bool := duration.counts.all Option.isNone

/-- Some unit is counted negatively. -/
def pointsToPast (duration : Duration) : Bool :=
  duration.counts.any fun count => count.any fun n => n.toInt < 0

/-- Multiplies every unit that is mentioned. -/
def scale? (duration : Duration) (factor : Int64) : Option Duration := do
  let days ← duration.days.mapM (Checked.mul? · factor)
  let weeks ← duration.weeks.mapM (Checked.mul? · factor)
  let months ← duration.months.mapM (Checked.mul? · factor)
  let years ← duration.years.mapM (Checked.mul? · factor)
  pure ⟨days, weeks, months, years⟩

/-- A step by a count, or no step where the count is absent. -/
def step? (step : Date → Int64 → Option Date) (date : Date) : Option Int64 → Option Date
  | none => some date
  | some count => step date count

/-- The date that the duration leads to: days are added first, then weeks, months and
years. -/
def addTo? (duration : Duration) (date : Date) : Option Date := do
  let date ← step? Date.addDays? date duration.days
  let date ← step? Date.addWeeks? date duration.weeks
  let date ← step? Date.addMonths? date duration.months
  step? Date.addYears? date duration.years

/-- The coarsest unit with a count other than zero, where weeks come last, after days. -/
def leading? (duration : Duration) : Option (CalendarUnit × Int64) :=
  let candidates : List (CalendarUnit × Option Int64) :=
    [(.year, duration.years), (.month, duration.months), (.day, duration.days),
      (.week, duration.weeks)]
  candidates.findSome? fun (unit, count) => (count.filter (· ≠ 0)).map fun n => (unit, n)

variable {duration : Duration}

theorem pointsToPast_iff :
    duration.pointsToPast = true ↔ ∃ n, some n ∈ duration.counts ∧ n.toInt < 0 := by
  simp only [pointsToPast, List.any_eq_true]
  constructor
  · rintro ⟨count, hcount, h⟩
    cases count with
    | none => cases h
    | some n => exact ⟨n, hcount, of_decide_eq_true h⟩
  · rintro ⟨n, hcount, hn⟩
    exact ⟨some n, hcount, decide_eq_true hn⟩

/-- Scaling by one changes nothing. -/
theorem scale?_one (duration : Duration) : duration.scale? 1 = some duration := by
  have hone : ∀ n : Int64, Checked.mul? n 1 = some n := by
    intro n
    refine Checked.mul?_eq_some_iff.2 ?_
    rw [show (1 : Int64).toInt = 1 from rfl, Int.mul_one]
  have hcount : ∀ count : Option Int64, count.mapM (Checked.mul? · 1) = some count := by
    intro count
    cases count with
    | none => rfl
    | some n => simp only [Option.mapM_some, hone]; rfl
  simp only [scale?, hcount]
  rfl

end Duration

end SpokenDate
