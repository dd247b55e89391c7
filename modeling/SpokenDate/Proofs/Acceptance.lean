/-
What is accepted, and as what.

For each form of a phrase one statement says when fields are read as it: which fields are
present and what the readers of these make of them.  All proofs about accepted fields go by
these statements and do not look at how reading is put together.

* **`read_eq_ok_iff`**: a field that may be absent;
* **`ofFields_eq_ok_iff`** for durations, shifts, offsets, weekday and calendar phrases;
* **`readAbsolute_eq_ok_iff`**, **`readShifted_eq_ok_iff`**, **`readLevel_eq_ok_iff`**: the
  forms of a whole phrase.
-/
import SpokenDate.Reading.Phrase

namespace SpokenDate

variable {α β : Type} {fields : Fields} {name : String}

theorem bind_eq_ok_iff {outcome : Except ReadError α} {next : α → Except ReadError β} {b : β} :
    outcome >>= next = .ok b ↔ ∃ a, outcome = .ok a ∧ next a = .ok b := by
  cases outcome with
  | error e => simp [bind, Except.bind]
  | ok a => simp [bind, Except.bind]

/-- What is read in one piece and put into a form is accepted as that form. -/
theorem return_eq_ok_iff {outcome : Except ReadError α} {form : α → β} {b : β} :
    (do return form (← outcome)) = (.ok b : Except ReadError β) ↔
      ∃ a, b = form a ∧ outcome = .ok a := by
  rw [bind_eq_ok_iff]
  constructor
  · rintro ⟨a, ha, h⟩
    cases h
    exact ⟨a, rfl, ha⟩
  · rintro ⟨a, rfl, ha⟩
    exact ⟨a, ha, rfl⟩

namespace Fields

theorem contains_eq_false_iff : fields.contains name = false ↔ fields.get? name = none := by
  rw [contains, Option.isSome_eq_false_iff, Option.isNone_iff_eq_none]

theorem containsAny_eq_false_iff {names : List String} :
    fields.containsAny names = false ↔ ∀ name ∈ names, fields.get? name = none := by
  simp only [containsAny, List.any_eq_false, Bool.not_eq_true, contains_eq_false_iff]

/-- Reading a field does not fail where the field is absent or its reader takes the value. -/
theorem read_eq_ok_iff {reader : Reader α} {found : Option α} :
    fields.read name reader = .ok found ↔
      match fields.get? name with
      | none => found = none
      | some value => found.isSome ∧ found = reader.meaning? value := by
  cases found with
  | none =>
    rw [read_eq_ok_none_iff]
    cases fields.get? name <;> simp
  | some a =>
    rw [read_eq_ok_some_iff]
    cases fields.get? name with
    | none => simp
    | some value => simp [eq_comm]

theorem read_map_eq_ok_some_iff {inner : Fields} :
    fields.read name .map = .ok (some inner) ↔ fields.get? name = some (.map inner) := by
  rw [read_eq_ok_some_iff]
  constructor
  · rintro ⟨value, hvalue, h⟩
    cases value with
    | map fields => cases h; exact hvalue
    | _ => cases h
  · intro h
    exact ⟨_, h, rfl⟩

end Fields

/-! ### Durations, shifts and offsets -/

theorem Duration.ofFields_eq_ok_iff {duration : Duration} :
    Duration.ofFields fields = .ok duration ↔
      fields.read "days" .integer = .ok duration.days ∧
      fields.read "weeks" .integer = .ok duration.weeks ∧
      fields.read "months" .integer = .ok duration.months ∧
      fields.read "years" .integer = .ok duration.years := by
  simp only [Duration.ofFields, bind_eq_ok_iff]
  constructor
  · rintro ⟨days, hdays, weeks, hweeks, months, hmonths, years, hyears, h⟩
    cases h
    exact ⟨hdays, hweeks, hmonths, hyears⟩
  · rintro ⟨hdays, hweeks, hmonths, hyears⟩
    exact ⟨_, hdays, _, hweeks, _, hmonths, _, hyears, rfl⟩

theorem Shift.ofFields_eq_ok_iff {shift : Shift} :
    Shift.ofFields fields = .ok shift ↔
      (match shift.duration with
        | none => fields.get? "duration" = none
        | some duration => ∃ units, fields.get? "duration" = some (.map units) ∧
            Duration.ofFields units = .ok duration) ∧
      fields.read "direction" .integer = .ok shift.direction := by
  obtain ⟨duration, direction⟩ := shift
  simp only [Shift.ofFields, bind_eq_ok_iff]
  constructor
  · rintro ⟨units, hunits, found, hfound, direction', hdirection, h⟩
    cases h
    refine ⟨?_, hdirection⟩
    -- the units are read only where there is a map of them
    cases units with
    | none =>
      cases hfound
      exact Fields.read_eq_ok_none_iff.1 hunits
    | some units =>
      obtain ⟨found, hread, rfl⟩ : ∃ d, Duration.ofFields units = .ok d ∧ some d = duration := by
        cases hread : Duration.ofFields units with
        | error e => simp [Option.mapM_some, hread, Functor.map, Except.map] at hfound
        | ok d =>
          simp [Option.mapM_some, hread, Functor.map, Except.map] at hfound
          exact ⟨d, rfl, hfound⟩
      exact ⟨units, Fields.read_map_eq_ok_some_iff.1 hunits, hread⟩
  · rintro ⟨hduration, hdirection⟩
    cases duration with
    | none => exact ⟨none, Fields.read_eq_ok_none_iff.2 hduration, none, rfl, _, hdirection, rfl⟩
    | some duration =>
      obtain ⟨units, hunits, hread⟩ := hduration
      refine ⟨some units, Fields.read_map_eq_ok_some_iff.2 hunits, some duration, ?_, _,
        hdirection, rfl⟩
      simp [Option.mapM_some, hread, Functor.map, Except.map]

theorem Offset.readNamed_eq_ok_iff {offset : Offset} :
    Offset.readNamed fields = .ok offset ↔
      ∃ duration, offset = .named duration ∧ Duration.ofFields fields = .ok duration :=
  return_eq_ok_iff

theorem Offset.readCounted_eq_ok_iff {offset : Offset} :
    Offset.readCounted fields = .ok offset ↔
      ∃ shift, offset = .counted shift ∧ Shift.ofFields fields = .ok shift :=
  return_eq_ok_iff

theorem Offset.readAdjacent_eq_ok_iff {offset : Offset} :
    Offset.readAdjacent fields = .ok offset ↔
      ∃ unit step, offset = .adjacent unit step ∧ fields.read "type" .unit = .ok unit ∧
        fields.read "num" .integer = .ok step := by
  simp only [Offset.readAdjacent, bind_eq_ok_iff]
  constructor
  · rintro ⟨unit, hunit, step, hstep, h⟩
    cases h
    exact ⟨unit, step, rfl, hunit, hstep⟩
  · rintro ⟨unit, step, rfl, hunit, hstep⟩
    exact ⟨unit, hunit, step, hstep, rfl⟩

/-- **An offset takes the fields of one of its groups**, and a named one takes none at all
where there are none. -/
theorem Offset.ofFields_eq_ok_iff {offset : Offset} :
    Offset.ofFields fields = .ok offset ↔
      match offset with
      | .named duration =>
        fields.containsAny ["duration", "direction"] = false ∧
          fields.containsAny ["num", "type"] = false ∧
          Duration.ofFields fields = .ok duration
      | .counted shift =>
        fields.containsAny ["duration", "direction"] = true ∧
          fields.containsAny ["num", "type"] = false ∧
          fields.containsAny ["days", "weeks", "months", "years"] = false ∧
          Shift.ofFields fields = .ok shift
      | .adjacent unit step =>
        fields.containsAny ["duration", "direction"] = false ∧
          fields.containsAny ["num", "type"] = true ∧
          fields.containsAny ["days", "weeks", "months", "years"] = false ∧
          fields.read "type" .unit = .ok unit ∧ fields.read "num" .integer = .ok step := by
  simp only [Offset.ofFields, Fields.readSole, Offset.groups, List.filter_cons, List.filter_nil]
  -- which groups are there decides which reader is asked, and that one decides the form
  cases fields.containsAny ["duration", "direction"] <;>
    cases fields.containsAny ["num", "type"] <;>
      cases fields.containsAny ["days", "weeks", "months", "years"] <;>
        cases offset <;>
          simp [readNamed_eq_ok_iff, readCounted_eq_ok_iff, readAdjacent_eq_ok_iff, and_assoc]

/-! ### Weekday and calendar phrases -/

theorem WeekdayPhrase.ofFields_eq_ok_iff {phrase : WeekdayPhrase} :
    WeekdayPhrase.ofFields fields = .ok phrase ↔
      fields.read "weekday" .weekday = .ok phrase.weekday ∧
      fields.read "distance" .integer = .ok phrase.distance := by
  simp only [WeekdayPhrase.ofFields, bind_eq_ok_iff]
  constructor
  · rintro ⟨weekday, hweekday, distance, hdistance, h⟩
    cases h
    exact ⟨hweekday, hdistance⟩
  · rintro ⟨hweekday, hdistance⟩
    exact ⟨_, hweekday, _, hdistance, rfl⟩

theorem CalendarPhrase.ofFields_eq_ok_iff {phrase : CalendarPhrase} :
    CalendarPhrase.ofFields fields = .ok phrase ↔
      fields.read "month" .month = .ok phrase.month ∧
      fields.read "day" .day = .ok phrase.day ∧
      CalendarPhrase.readYear fields = .ok phrase.year := by
  simp only [CalendarPhrase.ofFields, bind_eq_ok_iff]
  constructor
  · rintro ⟨month, hmonth, day, hday, year, hyear, h⟩
    cases h
    exact ⟨hmonth, hday, hyear⟩
  · rintro ⟨hmonth, hday, hyear⟩
    exact ⟨_, hmonth, _, hday, _, hyear, rfl⟩

namespace Phrase

variable {nested : Fields → Except ReadError Phrase} {phrase : Phrase}

theorem readWeekday_eq_ok_iff :
    readWeekday fields = .ok phrase ↔
      ∃ w, phrase = .weekday w ∧ WeekdayPhrase.ofFields fields = .ok w :=
  return_eq_ok_iff

theorem readCalendar_eq_ok_iff :
    readCalendar fields = .ok phrase ↔
      ∃ c, phrase = .calendar c ∧ CalendarPhrase.ofFields fields = .ok c :=
  return_eq_ok_iff

/-- **An absolute date takes the fields of one of its groups**, and is a calendar date where
there are none. -/
theorem readAbsolute_eq_ok_iff :
    readAbsolute fields = .ok phrase ↔
      (∃ w, phrase = .weekday w ∧ fields.containsAny ["weekday", "distance"] = true ∧
        fields.containsAny ["month", "day", "year"] = false ∧
        WeekdayPhrase.ofFields fields = .ok w) ∨
      ∃ c, phrase = .calendar c ∧ fields.containsAny ["weekday", "distance"] = false ∧
        CalendarPhrase.ofFields fields = .ok c := by
  simp only [readAbsolute, Fields.readSole, absoluteGroups, List.filter_cons, List.filter_nil]
  cases fields.containsAny ["weekday", "distance"] <;>
    cases fields.containsAny ["month", "day", "year"] <;>
      simp [readWeekday_eq_ok_iff, readCalendar_eq_ok_iff]

/-! ### Whole phrases -/

theorem readOffset_eq_ok_iff :
    readOffset fields = .ok phrase ↔
      ∃ o, phrase = .offset o ∧ Offset.ofFields fields = .ok o :=
  return_eq_ok_iff

theorem readShifted_eq_ok_iff :
    readShifted nested fields = .ok phrase ↔
      (∃ shift base inner, phrase = .fromPhrase shift base ∧
        Shift.ofFields fields = .ok shift ∧ fields.get? "date" = some (.map inner) ∧
        nested inner = .ok base) ∨
      ∃ shift point, phrase = .fromPoint shift point ∧
        Shift.ofFields fields = .ok shift ∧ fields.read "date" .point = .ok point := by
  simp only [readShifted, bind_eq_ok_iff]
  constructor
  · rintro ⟨shift, hshift, h⟩
    split at h
    · rename_i inner hinner
      obtain ⟨base, hbase, h⟩ := bind_eq_ok_iff.1 h
      cases h
      exact .inl ⟨shift, base, inner, rfl, hshift, hinner, hbase⟩
    · obtain ⟨point, hpoint, h⟩ := bind_eq_ok_iff.1 h
      cases h
      exact .inr ⟨shift, point, rfl, hshift, hpoint⟩
  · rintro (⟨shift, base, inner, rfl, hshift, hinner, hbase⟩ | ⟨shift, point, rfl, hshift, hpoint⟩)
    · refine ⟨shift, hshift, ?_⟩
      rw [hinner]
      exact bind_eq_ok_iff.2 ⟨base, hbase, rfl⟩
    · refine ⟨shift, hshift, ?_⟩
      split
      · -- fields of their own are not a point
        rename_i inner hinner
        rw [Fields.read_eq_ok_iff, hinner] at hpoint
        obtain ⟨hsome, rfl⟩ := hpoint
        cases hsome
      · exact bind_eq_ok_iff.2 ⟨point, hpoint, rfl⟩

/-- **A level holds nothing, or a phrase of exactly one form.** -/
theorem readLevel_eq_ok_iff :
    readLevel nested fields = .ok phrase ↔
      (fields.isEmpty = true ∧ phrase = .empty) ∨
      (∃ inner, fields.get? "relative" = some (.map inner) ∧ fields.get? "absolute" = none ∧
        fields.containsAny shiftNames = false ∧ readOffset inner = .ok phrase) ∨
      (∃ inner, fields.get? "relative" = none ∧ fields.get? "absolute" = some (.map inner) ∧
        fields.containsAny shiftNames = false ∧ readAbsolute inner = .ok phrase) ∨
      (fields.get? "relative" = none ∧ fields.get? "absolute" = none ∧
        fields.containsAny shiftNames = true ∧ readShifted nested fields = .ok phrase) := by
  by_cases hempty : fields.isEmpty = true
  · have habsent := Fields.isEmpty_iff.1 hempty
    have hshifted : fields.containsAny shiftNames = false :=
      Fields.containsAny_eq_false_iff.2 fun name _ => habsent name
    simp [readLevel, hempty, habsent, hshifted, pure, Except.pure, eq_comm]
  · simp only [readLevel, hempty, bind_eq_ok_iff, Bool.false_eq_true, if_false, false_and,
      false_or]
    constructor
    · rintro ⟨relative, hrelative, absolute, habsolute, h⟩
      -- three of the eight cases are forms, the others are refused
      cases hshifted : fields.containsAny shiftNames <;> cases relative <;> cases absolute <;>
        simp only [hshifted] at h
      case false.none.none => cases h
      case false.none.some inner =>
        exact .inr (.inl ⟨inner, Fields.read_eq_ok_none_iff.1 hrelative,
          Fields.read_map_eq_ok_some_iff.1 habsolute, rfl, h⟩)
      case false.some.none inner =>
        exact .inl ⟨inner, Fields.read_map_eq_ok_some_iff.1 hrelative,
          Fields.read_eq_ok_none_iff.1 habsolute, rfl, h⟩
      case true.none.none =>
        exact .inr (.inr ⟨Fields.read_eq_ok_none_iff.1 hrelative,
          Fields.read_eq_ok_none_iff.1 habsolute, rfl, h⟩)
      all_goals cases h
    · rintro (⟨inner, hrelative, habsolute, hshifted, h⟩ |
        ⟨inner, hrelative, habsolute, hshifted, h⟩ | ⟨hrelative, habsolute, hshifted, h⟩)
      · refine ⟨_, Fields.read_map_eq_ok_some_iff.2 hrelative, _,
          Fields.read_eq_ok_none_iff.2 habsolute, ?_⟩
        rw [hshifted]
        exact h
      · refine ⟨_, Fields.read_eq_ok_none_iff.2 hrelative, _,
          Fields.read_map_eq_ok_some_iff.2 habsolute, ?_⟩
        rw [hshifted]
        exact h
      · refine ⟨_, Fields.read_eq_ok_none_iff.2 hrelative, _,
          Fields.read_eq_ok_none_iff.2 habsolute, ?_⟩
        rw [hshifted]
        exact h

end Phrase

end SpokenDate
