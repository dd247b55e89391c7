/-
Runs: one phrase after the other, each seen from the date of the one before it.

A run is told here by plain numbers, as a host program sees it.  It can only go on where the
numbers that are to be today name a day, and it always goes on, since every answer with a date
names one.

* **`DateTime.isReal_iff`**: the numbers that a calendar allows are those of the dates;
* **`isReal_of_resolveWith`**: what is found is a real date;
* **`next_eq_atMidnight`**: one step of a run;
* **`exists_run?`**: whole runs, of any length.
-/
import SpokenDate.Resolution

namespace SpokenDate

/-- A midnight that the calendar has, of a year in the span.  The span is made of whole
years, from the first day of the first to the last day of the last. -/
structure DateTime.IsReal (t : DateTime) : Prop where
  month : 1 ≤ t.month ∧ t.month ≤ 12
  day : 1 ≤ t.day ∧ t.day ≤ Gregorian.monthLength t.year t.month
  year : firstYear ≤ t.year ∧ t.year ≤ lastYear
  midnight : t.hour = 0 ∧ t.minute = 0 ∧ t.second = 0

/-- The date with these numbers, if there is one. -/
def DateTime.date? (t : DateTime) : Option Date := Date.ofYmd? t.year t.month t.day

/-- What is today after an answer. -/
def DateTime.next (today : DateTime) : Answer → DateTime
  | .ok (some found) => found
  | _ => today

/-- A step of a run: what was today, and the answer. -/
structure Stage where
  today : DateTime
  answer : Answer

/-- The steps of a run, unless numbers that name no day come to be today. -/
def run? (options : Options) : DateTime → List Fields → Option (List Stage)
  | _, [] => some []
  | today, fields :: rest => do
    let date ← today.date?
    let answer := resolveWith fields date options
    let later ← run? options (today.next answer) rest
    pure (⟨today, answer⟩ :: later)

variable {fields : Fields} {today : Date} {options : Options}

theorem Date.isReal_atMidnight (d : Date) : d.atMidnight.IsReal :=
  ⟨d.month_mem, d.day_mem, d.year_mem, rfl, rfl, rfl⟩

/-- **What the calendar allows are the dates.** -/
theorem DateTime.isReal_iff {t : DateTime} : t.IsReal ↔ ∃ d : Date, t = d.atMidnight := by
  constructor
  · obtain ⟨year, month, day, hour, minute, second⟩ := t
    rintro ⟨hmonth, hday, hyear, rfl, rfl, rfl⟩
    obtain ⟨d, hd⟩ := Date.exists_ofYmd? hyear hmonth hday
    obtain ⟨rfl, rfl, rfl⟩ := Date.ofYmd?_eq_some_iff.1 hd
    exact ⟨d, rfl⟩
  · rintro ⟨d, rfl⟩
    exact d.isReal_atMidnight

theorem DateTime.date?_atMidnight (d : Date) : d.atMidnight.date? = some d := Date.ofYmd?_ymd d

/-- **An answer is a real date**, whatever was asked. -/
theorem isReal_of_resolveWith {found : DateTime}
    (h : resolveWith fields today options = .ok (some found)) : found.IsReal := by
  obtain ⟨phrase, -, hanswer⟩ := resolveWith_eq_ok_iff.1 h
  obtain ⟨d, -, rfl⟩ := Option.map_eq_some_iff.1 hanswer.symm
  exact d.isReal_atMidnight

/-- After a step the date that was found is today, or the same day still is. -/
theorem next_eq_atMidnight :
    today.atMidnight.next (resolveWith fields today options) =
      (((findDate fields today options).toOption.bind id).getD today).atMidnight := by
  rw [resolveWith]
  cases findDate fields today options with
  | error e => rfl
  | ok found => cases found <;> rfl

/-- A run from a date goes through to its end and gives the answers of a walk. -/
theorem run?_atMidnight (options : Options) (today : Date) (results : List Fields) :
    ∃ stages, run? options today.atMidnight results = some stages ∧
      stages.map Stage.answer = walk options today results ∧
      ∀ stage ∈ stages, stage.today.IsReal ∧
        ∀ found, stage.answer = .ok (some found) → found.IsReal := by
  -- by induction on what is still to be asked, for any day that may be today
  induction results generalizing today with
  | nil => exact ⟨[], rfl, rfl, fun _ h => nomatch h⟩
  | cons fields rest ih =>
    obtain ⟨later, hlater, hanswers, hreal⟩ :=
      ih (((findDate fields today options).toOption.bind id).getD today)
    rw [← next_eq_atMidnight] at hlater
    refine ⟨⟨today.atMidnight, resolveWith fields today options⟩ :: later, ?_, ?_, ?_⟩
    · simp only [run?, DateTime.date?_atMidnight, bind, Option.bind_some, hlater, pure]
    · rw [walk_cons, List.map_cons, hanswers]
    · refine List.forall_mem_cons.2 ⟨⟨today.isReal_atMidnight, ?_⟩, hreal⟩
      intro found hfound
      exact isReal_of_resolveWith hfound

/-- **Every date of a run is a real date.**  From a real day a run goes through to its end.  On
the way every today is a real day and every answer with a date is a real one, at midnight. -/
theorem exists_run? {start : DateTime} (h : start.IsReal) (options : Options)
    (results : List Fields) :
    ∃ (today : Date) (stages : List Stage), start = today.atMidnight ∧
      run? options start results = some stages ∧
      stages.map Stage.answer = walk options today results ∧
      ∀ stage ∈ stages, stage.today.IsReal ∧
        ∀ found, stage.answer = .ok (some found) → found.IsReal := by
  obtain ⟨today, rfl⟩ := DateTime.isReal_iff.1 h
  obtain ⟨stages, hrun, hanswers, hreal⟩ := run?_atMidnight options today results
  exact ⟨today, stages, rfl, hrun, hanswers, hreal⟩

/-- What is asked from the last day of the span on: the month after it, which is not supported, and
then 31 February 2011. -/
def afterLastDay : List Fields :=
  [.singleton "relative" (.map (.ofList [("num", .integer 1), ("type", .text "month")])),
    .singleton "absolute" (.map (.ofList [("month", .text "feb"), ("day", .text "31st"),
      ("year", .text "2011")]))]

/-- The month after the last day gives no date, so that the last day is still today for what
follows, and 31 February 2011 is 3 March. -/
theorem exists_run?_afterLastDay :
    (⟨262142, 12, 31, 0, 0, 0⟩ : DateTime).IsReal ∧
    ∃ (today : Date) (stages : List Stage),
      (⟨262142, 12, 31, 0, 0, 0⟩ : DateTime) = today.atMidnight ∧
      run? {} ⟨262142, 12, 31, 0, 0, 0⟩ afterLastDay = some stages ∧
      stages.map Stage.answer = walk {} today afterLastDay ∧
      stages.map Stage.answer = [.ok none, .ok (some ⟨2011, 3, 3, 0, 0, 0⟩)] ∧
      ∀ stage ∈ stages, stage.today.IsReal ∧
        ∀ found, stage.answer = .ok (some found) → found.IsReal := by
  have hreal : (⟨262142, 12, 31, 0, 0, 0⟩ : DateTime).IsReal :=
    ⟨by decide, by decide, by decide, by decide⟩
  have hfound : (run? {} ⟨262142, 12, 31, 0, 0, 0⟩ afterLastDay).map (List.map Stage.answer) =
      some [.ok none, .ok (some ⟨2011, 3, 3, 0, 0, 0⟩)] := rfl
  obtain ⟨today, stages, htoday, hrun, hanswers, hstages⟩ := exists_run? hreal {} afterLastDay
  rw [hrun, Option.map_some, Option.some_inj] at hfound
  exact ⟨hreal, today, stages, htoday, hrun, hanswers, hfound, hstages⟩

end SpokenDate
