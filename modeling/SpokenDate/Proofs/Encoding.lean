/-
Phrases as fields.

Every phrase can be written as fields again: a part that is present becomes a field and a
part that is missing does not.  Reading undoes this as long as each form of phrase can be
told by the fields that are there, and what reading brings out can always be told so.

* **`toFields`**: the fields of a phrase;
* **`IsCanonical`**: the phrases that can be told by their fields;
* **`exists_fields_iff`**: these, and no others, are the phrases that fields hold.

Design notes: months, days, weekdays and years in full are written as integers, since their
words only exist for some of the values.
-/
import SpokenDate.Proofs.Acceptance
import SpokenDate.Proofs.Nesting
import SpokenDate.Proofs.Ordered

namespace SpokenDate

/-! ### The fields of a phrase -/

def Duration.toFields (duration : Duration) : Fields :=
  .ofPresent [("days", duration.days.map .integer), ("weeks", duration.weeks.map .integer),
    ("months", duration.months.map .integer), ("years", duration.years.map .integer)]

/-- The fields of a shift, apart from where it starts. -/
def Shift.parts (shift : Shift) : List (String × Option Value) :=
  [("duration", shift.duration.map fun duration => .map duration.toFields),
    ("direction", shift.direction.map .integer)]

def CalendarUnit.name : CalendarUnit → String
  | day => "day"
  | week => "week"
  | month => "month"
  | year => "year"

def Offset.toFields : Offset → Fields
  | named duration => duration.toFields
  | counted shift => .ofPresent shift.parts
  | adjacent unit step =>
    .ofPresent [("type", unit.map fun unit => .text unit.name), ("num", step.map .integer)]

def WeekdayPhrase.toFields (phrase : WeekdayPhrase) : Fields :=
  .ofPresent [("weekday", phrase.weekday.map .integer), ("distance", phrase.distance.map .integer)]

def Value.ofUnsigned (n : UInt32) : Value := .integer (Int64.ofNat n.toNat)

def Year.toValue : Year → Value
  | digits text => .text text
  | full year => .integer year.toInt64

def CalendarPhrase.toFields (phrase : CalendarPhrase) : Fields :=
  .ofPresent [("month", phrase.month.map .ofUnsigned), ("day", phrase.day.map .ofUnsigned),
    ("year", phrase.year.map Year.toValue)]

def Point.toValue : Point → Value
  | now => .text "now"
  | date d => .date d

def Phrase.toFields : Phrase → Fields
  | empty => .nil
  | offset o => .singleton "relative" (.map o.toFields)
  | weekday w => .singleton "absolute" (.map w.toFields)
  | calendar c => .singleton "absolute" (.map c.toFields)
  | fromPoint shift point => .ofPresent (("date", point.map Point.toValue) :: shift.parts)
  | fromPhrase shift base => .ofPresent (("date", some (.map base.toFields)) :: shift.parts)

/-! ### Their order -/

theorem Duration.ordered_toFields (duration : Duration) : duration.toFields.Ordered :=
  Fields.ordered_ofPresent (by simp [Value.Ordered])

theorem Shift.ordered_parts (shift : Shift) :
    ∀ part ∈ shift.parts, ∀ value, part.2 = some value → value.Ordered := by
  simp [parts, Value.Ordered, Duration.ordered_toFields]

theorem Offset.ordered_toFields (offset : Offset) : offset.toFields.Ordered := by
  cases offset with
  | named duration => exact duration.ordered_toFields
  | counted shift => exact Fields.ordered_ofPresent shift.ordered_parts
  | adjacent unit step => exact Fields.ordered_ofPresent (by simp [Value.Ordered])

theorem WeekdayPhrase.ordered_toFields (phrase : WeekdayPhrase) : phrase.toFields.Ordered :=
  Fields.ordered_ofPresent (by simp [Value.Ordered])

theorem Year.ordered_toValue (year : Year) : year.toValue.Ordered := by
  cases year <;> trivial

theorem CalendarPhrase.ordered_toFields (phrase : CalendarPhrase) : phrase.toFields.Ordered :=
  Fields.ordered_ofPresent (by simp [Value.ofUnsigned, Value.Ordered, Year.ordered_toValue])

theorem Point.ordered_toValue (point : Point) : point.toValue.Ordered := by
  cases point <;> trivial

theorem Fields.ordered_singleton {name : String} {value : Value} (h : value.Ordered) :
    (singleton name value).Ordered := by
  refine ⟨h, ?_, trivial⟩
  intro other hother
  cases hother

theorem Phrase.ordered_toFields (phrase : Phrase) : phrase.toFields.Ordered := by
  induction phrase with
  | empty => trivial
  | offset o => exact Fields.ordered_singleton o.ordered_toFields
  | weekday w => exact Fields.ordered_singleton w.ordered_toFields
  | calendar c => exact Fields.ordered_singleton c.ordered_toFields
  | fromPoint shift point =>
    refine Fields.ordered_ofPresent (List.forall_mem_cons.2 ⟨?_, shift.ordered_parts⟩)
    intro value hvalue
    obtain ⟨point, -, rfl⟩ := Option.map_eq_some_iff.1 hvalue
    exact point.ordered_toValue
  | fromPhrase shift base ih =>
    refine Fields.ordered_ofPresent (List.forall_mem_cons.2 ⟨?_, shift.ordered_parts⟩)
    intro value hvalue
    cases hvalue
    exact ih

/-! ### Reading them back -/

variable {α : Type} {fields : Fields} {name : String}

/-- A part that was written in a way that its reader understands is read back. -/
theorem Fields.read_of_get? {reader : Reader α} {part : Option α} (write : α → Value)
    (hget : fields.get? name = part.map write)
    (hmeaning : ∀ a, part = some a → reader.meaning? (write a) = some a) :
    fields.read name reader = .ok part := by
  cases part with
  | none => exact read_eq_ok_none_iff.2 hget
  | some a => exact read_eq_ok_some_iff.2 ⟨_, hget, hmeaning a rfl⟩

theorem Value.unsigned?_ofUnsigned (n : UInt32) : (ofUnsigned n).unsigned? = some n := by
  have hn := n.toNat_lt
  show Checked.uint32? (Int64.ofNat n.toNat).toInt = some n
  rw [Int64.toInt_ofNat_of_lt (by omega)]
  exact Checked.uint32?_toNat n

theorem Value.year?_toValue {year : Year} (h : year.value?.isSome) :
    year.toValue.year? = some year := by
  cases year with
  | digits text =>
    show (if (Year.expand? text).isSome then some (Year.digits text) else none) = _
    exact if_pos h
  | full year =>
    show (Checked.int32? year.toInt64.toInt).map Year.full = _
    rw [Int32.toInt_toInt64, Checked.int32?_toInt]
    rfl

theorem Value.point?_toValue (point : Point) : point.toValue.point? = some point := by
  cases point with
  | now => decide
  | date d => rfl

theorem CalendarUnit.ofName?_name (unit : CalendarUnit) : ofName? unit.name = some unit := by
  cases unit <;> decide

theorem Duration.ofFields_toFields (duration : Duration) :
    Duration.ofFields duration.toFields = .ok duration := by
  refine Duration.ofFields_eq_ok_iff.2 ⟨?_, ?_, ?_, ?_⟩ <;>
    exact Fields.read_of_get? .integer (by simp [toFields]) fun _ _ => rfl

theorem Shift.ofFields_of_get? {shift : Shift}
    (hduration : fields.get? "duration" = shift.duration.map fun duration => .map duration.toFields)
    (hdirection : fields.get? "direction" = shift.direction.map .integer) :
    Shift.ofFields fields = .ok shift := by
  refine Shift.ofFields_eq_ok_iff.2 ⟨?_, Fields.read_of_get? .integer hdirection fun _ _ => rfl⟩
  cases hfound : shift.duration with
  | none =>
    rw [hfound] at hduration
    exact hduration
  | some duration =>
    rw [hfound] at hduration
    exact ⟨_, hduration, duration.ofFields_toFields⟩

/-! ### Canonical phrases -/

def Offset.IsCanonical : Offset → Prop
  | named _ => True
  | counted shift => shift.duration.isSome ∨ shift.direction.isSome
  | adjacent unit step => unit.isSome ∨ step.isSome

/-- Digits that were typed for the year name one. -/
def CalendarPhrase.IsCanonical (phrase : CalendarPhrase) : Prop :=
  ∀ text, phrase.year = some (.digits text) → (Year.digits text).value?.isSome

/-- Each form that is told by its parts has one, and every year can be read. -/
def Phrase.IsCanonical : Phrase → Prop
  | empty => True
  | offset o => o.IsCanonical
  | weekday w => w.weekday.isSome ∨ w.distance.isSome
  | calendar c => c.IsCanonical
  | fromPoint shift point => shift.duration.isSome ∨ shift.direction.isSome ∨ point.isSome
  | fromPhrase _ base => base.IsCanonical

/-- Whether a field was there is seen from what was read. -/
theorem Fields.contains_eq_isSome {reader : Reader α} {found : Option α}
    (h : fields.read name reader = .ok found) : fields.contains name = found.isSome := by
  rw [contains]
  rw [read_eq_ok_iff] at h
  cases hvalue : fields.get? name with
  | none =>
    rw [hvalue] at h
    rw [h]
    rfl
  | some value =>
    rw [hvalue] at h
    rw [h.1]
    rfl

theorem Shift.contains_eq_isSome {shift : Shift} (h : Shift.ofFields fields = .ok shift) :
    fields.contains "duration" = shift.duration.isSome ∧
      fields.contains "direction" = shift.direction.isSome := by
  obtain ⟨hduration, hdirection⟩ := Shift.ofFields_eq_ok_iff.1 h
  refine ⟨?_, Fields.contains_eq_isSome hdirection⟩
  rw [Fields.contains]
  cases hfound : shift.duration with
  | none =>
    rw [hfound] at hduration
    rw [hduration]
    rfl
  | some duration =>
    rw [hfound] at hduration
    obtain ⟨units, hunits, -⟩ := hduration
    rw [hunits]
    rfl

theorem Offset.ofFields_toFields {offset : Offset} (h : offset.IsCanonical) :
    Offset.ofFields offset.toFields = .ok offset := by
  rw [Offset.ofFields_eq_ok_iff]
  cases offset with
  | named duration =>
    refine ⟨?_, ?_, duration.ofFields_toFields⟩ <;>
      simp [Fields.containsAny_eq_false_iff, toFields, Duration.toFields]
  | counted shift =>
    have hshift : Shift.ofFields (toFields (counted shift)) = .ok shift :=
      Shift.ofFields_of_get? (by simp [toFields, Shift.parts]) (by simp [toFields, Shift.parts])
    obtain ⟨hduration, hdirection⟩ := Shift.contains_eq_isSome hshift
    refine ⟨?_, ?_, ?_, hshift⟩
    · simpa [IsCanonical, Fields.containsAny, hduration, hdirection] using h
    · simp [Fields.containsAny_eq_false_iff, toFields, Shift.parts]
    · simp [Fields.containsAny_eq_false_iff, toFields, Shift.parts]
  | adjacent unit step =>
    have hunit : (toFields (adjacent unit step)).read "type" .unit = .ok unit :=
      Fields.read_of_get? (fun unit => .text unit.name) (by simp [toFields]) fun unit _ =>
        unit.ofName?_name
    have hstep : (toFields (adjacent unit step)).read "num" .integer = .ok step :=
      Fields.read_of_get? .integer (by simp [toFields]) fun _ _ => rfl
    refine ⟨?_, ?_, ?_, hunit, hstep⟩
    · simp [Fields.containsAny_eq_false_iff, toFields]
    · have htype := Fields.contains_eq_isSome hunit
      have hnum := Fields.contains_eq_isSome hstep
      simpa [IsCanonical, Fields.containsAny, htype, hnum, or_comm] using h
    · simp [Fields.containsAny_eq_false_iff, toFields]

/-- An offset that is read has a part that tells its form. -/
theorem Offset.isCanonical_of_ofFields {offset : Offset} (h : Offset.ofFields fields = .ok offset) :
    offset.IsCanonical := by
  rw [Offset.ofFields_eq_ok_iff] at h
  cases offset with
  | named duration => trivial
  | counted shift =>
    obtain ⟨hcounted, -, -, hshift⟩ := h
    obtain ⟨hduration, hdirection⟩ := Shift.contains_eq_isSome hshift
    simpa [IsCanonical, Fields.containsAny, hduration, hdirection] using hcounted
  | adjacent unit step =>
    obtain ⟨-, hadjacent, -, hunit, hstep⟩ := h
    have htype := Fields.contains_eq_isSome hunit
    have hnum := Fields.contains_eq_isSome hstep
    simpa [IsCanonical, Fields.containsAny, htype, hnum, or_comm] using hadjacent

theorem WeekdayPhrase.ofFields_toFields (phrase : WeekdayPhrase) :
    WeekdayPhrase.ofFields phrase.toFields = .ok phrase := by
  refine WeekdayPhrase.ofFields_eq_ok_iff.2 ⟨?_, ?_⟩
  · exact Fields.read_of_get? .integer (by simp [toFields]) fun _ _ => rfl
  · exact Fields.read_of_get? .integer (by simp [toFields]) fun _ _ => rfl

/-- Whether an absolute date is a weekday is seen from what was read. -/
theorem WeekdayPhrase.containsAny_eq {phrase : WeekdayPhrase}
    (h : WeekdayPhrase.ofFields fields = .ok phrase) :
    fields.containsAny ["weekday", "distance"] =
      (phrase.weekday.isSome || phrase.distance.isSome) := by
  obtain ⟨hweekday, hdistance⟩ := WeekdayPhrase.ofFields_eq_ok_iff.1 h
  simp [Fields.containsAny, Fields.contains_eq_isSome hweekday,
    Fields.contains_eq_isSome hdistance]

theorem CalendarPhrase.ofFields_toFields {phrase : CalendarPhrase} (h : phrase.IsCanonical) :
    CalendarPhrase.ofFields phrase.toFields = .ok phrase := by
  have hyear : phrase.toFields.get? "year" = phrase.year.map Year.toValue := by simp [toFields]
  refine CalendarPhrase.ofFields_eq_ok_iff.2 ⟨?_, ?_, ?_⟩
  · exact Fields.read_of_get? .ofUnsigned (by simp [toFields]) fun n _ =>
      Value.unsigned?_ofUnsigned n
  · exact Fields.read_of_get? .ofUnsigned (by simp [toFields]) fun n _ =>
      Value.unsigned?_ofUnsigned n
  · rw [readYear]
    split
    · -- a year is never written as a map
      rename_i inner hinner
      rw [hyear] at hinner
      obtain ⟨year, -, hvalue⟩ := Option.map_eq_some_iff.1 hinner
      cases year <;> cases hvalue
    · refine Fields.read_of_get? Year.toValue hyear fun year hfound => ?_
      refine Value.year?_toValue ?_
      cases year with
      | digits text => exact h text hfound
      | full year => rfl

/-- Digits are only taken for a year that they name. -/
theorem CalendarPhrase.isCanonical_of_ofFields {phrase : CalendarPhrase}
    (h : CalendarPhrase.ofFields fields = .ok phrase) : phrase.IsCanonical := by
  obtain ⟨-, -, hyear⟩ := CalendarPhrase.ofFields_eq_ok_iff.1 h
  intro text hdigits
  rw [hdigits, readYear] at hyear
  split at hyear
  · -- a century makes a year in full
    rw [Year.ofFields] at hyear
    split at hyear
    · cases hyear
    · obtain ⟨value, -, hmeaning⟩ := Fields.read_eq_ok_some_iff.1 hyear
      simp [Reader.yearSince, Value.yearSince?, Option.bind_eq_some_iff] at hmeaning
  · obtain ⟨value, -, hmeaning⟩ := Fields.read_eq_ok_some_iff.1 hyear
    cases value with
    | text s =>
      simp only [Reader.year, Value.year?] at hmeaning
      split at hmeaning
      · rename_i hsome
        cases hmeaning
        exact hsome
      · cases hmeaning
    | integer n => simp [Reader.year, Value.year?] at hmeaning
    | _ => cases hmeaning

namespace Phrase

variable {nested : Fields → Except ReadError Phrase} {phrase : Phrase}

theorem readAbsolute_toFields_weekday {w : WeekdayPhrase} (h : (weekday w).IsCanonical) :
    readAbsolute w.toFields = .ok (weekday w) := by
  have hread := w.ofFields_toFields
  refine readAbsolute_eq_ok_iff.2 (.inl ⟨w, rfl, ?_, ?_, hread⟩)
  · rw [WeekdayPhrase.containsAny_eq hread, Bool.or_eq_true]
    exact h
  · simp [Fields.containsAny_eq_false_iff, WeekdayPhrase.toFields]

theorem readAbsolute_toFields_calendar {c : CalendarPhrase} (h : c.IsCanonical) :
    readAbsolute c.toFields = .ok (calendar c) := by
  refine readAbsolute_eq_ok_iff.2 (.inr ⟨c, rfl, ?_, CalendarPhrase.ofFields_toFields h⟩)
  simp [Fields.containsAny_eq_false_iff, CalendarPhrase.toFields]

theorem isCanonical_of_readAbsolute (h : readAbsolute fields = .ok phrase) :
    phrase.IsCanonical ∧ phrase.links = 0 := by
  rcases readAbsolute_eq_ok_iff.1 h with ⟨w, rfl, hsome, -, hw⟩ | ⟨c, rfl, -, hc⟩
  · rw [WeekdayPhrase.containsAny_eq hw, Bool.or_eq_true] at hsome
    exact ⟨hsome, rfl⟩
  · exact ⟨CalendarPhrase.isCanonical_of_ofFields hc, rfl⟩

theorem readLevel_relative {inner : Fields} (h : readOffset inner = .ok phrase) :
    readLevel nested (.singleton "relative" (.map inner)) = .ok phrase := by
  refine readLevel_eq_ok_iff.2 (.inr (.inl ⟨inner, ?_, ?_, ?_, h⟩))
  · simp [Fields.singleton, Fields.get?]
  · simp [Fields.singleton, Fields.get?]
  · simp [Fields.containsAny_eq_false_iff, shiftNames, Fields.singleton, Fields.get?]

theorem readLevel_absolute {inner : Fields} (h : readAbsolute inner = .ok phrase) :
    readLevel nested (.singleton "absolute" (.map inner)) = .ok phrase := by
  refine readLevel_eq_ok_iff.2 (.inr (.inr (.inl ⟨inner, ?_, ?_, ?_, h⟩)))
  · simp [Fields.singleton, Fields.get?]
  · simp [Fields.singleton, Fields.get?]
  · simp [Fields.containsAny_eq_false_iff, shiftNames, Fields.singleton, Fields.get?]

/-- One level of a phrase is read back if the phrase inside it is. -/
theorem readLevel_toFields (h : phrase.IsCanonical)
    (hnested : ∀ shift base, phrase = fromPhrase shift base → nested base.toFields = .ok base) :
    readLevel nested phrase.toFields = .ok phrase := by
  cases phrase with
  | empty => exact readLevel_eq_ok_iff.2 (.inl ⟨rfl, rfl⟩)
  | offset o =>
    exact readLevel_relative (readOffset_eq_ok_iff.2 ⟨o, rfl, Offset.ofFields_toFields h⟩)
  | weekday w => exact readLevel_absolute (readAbsolute_toFields_weekday h)
  | calendar c => exact readLevel_absolute (readAbsolute_toFields_calendar h)
  | fromPoint shift point =>
    have hshift : Shift.ofFields (fromPoint shift point).toFields = .ok shift :=
      Shift.ofFields_of_get? (by simp [toFields, Shift.parts]) (by simp [toFields, Shift.parts])
    have hpoint : (fromPoint shift point).toFields.read "date" .point = .ok point :=
      Fields.read_of_get? Point.toValue (by simp [toFields, Shift.parts]) fun point _ =>
        Value.point?_toValue point
    obtain ⟨hduration, hdirection⟩ := Shift.contains_eq_isSome hshift
    have hdate := Fields.contains_eq_isSome hpoint
    refine readLevel_eq_ok_iff.2 (.inr (.inr (.inr ⟨?_, ?_, ?_, ?_⟩)))
    · simp [toFields, Shift.parts]
    · simp [toFields, Shift.parts]
    · -- a canonical shift has a part by which it is told
      simpa [IsCanonical, Fields.containsAny, shiftNames, hduration, hdirection, hdate] using h
    · exact readShifted_eq_ok_iff.2 (.inr ⟨shift, point, rfl, hshift, hpoint⟩)
  | fromPhrase shift base =>
    have hshift : Shift.ofFields (fromPhrase shift base).toFields = .ok shift :=
      Shift.ofFields_of_get? (by simp [toFields, Shift.parts]) (by simp [toFields, Shift.parts])
    have hdate : (fromPhrase shift base).toFields.get? "date" = some (.map base.toFields) := by
      simp [toFields]
    refine readLevel_eq_ok_iff.2 (.inr (.inr (.inr ⟨?_, ?_, ?_, ?_⟩)))
    · simp [toFields, Shift.parts]
    · simp [toFields, Shift.parts]
    · simp [Fields.containsAny, Fields.contains, shiftNames, hdate]
    · exact readShifted_eq_ok_iff.2
        (.inl ⟨shift, base, _, rfl, hshift, hdate, hnested shift base rfl⟩)

/-- What one level is read as is canonical if what the level inside it is read as is. -/
theorem isCanonical_of_readLevel {bound : Nat}
    (hnested : ∀ inner base, nested inner = .ok base → base.IsCanonical ∧ base.links < bound)
    (h : readLevel nested fields = .ok phrase) : phrase.IsCanonical ∧ phrase.links ≤ bound := by
  rcases readLevel_eq_ok_iff.1 h with ⟨-, rfl⟩ | ⟨inner, -, -, -, hread⟩ |
    ⟨inner, -, -, -, hread⟩ | ⟨-, -, hshifted, hread⟩
  · exact ⟨trivial, Nat.zero_le _⟩
  · obtain ⟨o, rfl, ho⟩ := readOffset_eq_ok_iff.1 hread
    exact ⟨Offset.isCanonical_of_ofFields ho, Nat.zero_le _⟩
  · obtain ⟨hcanonical, hlinks⟩ := isCanonical_of_readAbsolute hread
    exact ⟨hcanonical, hlinks ▸ Nat.zero_le _⟩
  · rcases readShifted_eq_ok_iff.1 hread with
      ⟨shift, base, inner, rfl, -, -, hbase⟩ | ⟨shift, point, rfl, hshift, hpoint⟩
    · exact hnested inner base hbase
    · obtain ⟨hduration, hdirection⟩ := Shift.contains_eq_isSome hshift
      have hdate := Fields.contains_eq_isSome hpoint
      refine ⟨?_, Nat.zero_le _⟩
      simpa [IsCanonical, Fields.containsAny, shiftNames, hduration, hdirection, hdate]
        using hshifted

/-- **Reading undoes writing**, down to the last level that is left. -/
theorem readWithin_toFields (limit : Nat) {levels : Nat} {phrase : Phrase}
    (h : phrase.IsCanonical) (hlinks : phrase.links ≤ levels) :
    readWithin limit levels phrase.toFields = .ok phrase := by
  induction levels generalizing phrase with
  | zero =>
    -- no level is left, and the phrase has none inside it
    refine readLevel_toFields h ?_
    rintro shift base rfl
    exact absurd hlinks (Nat.not_succ_le_zero _)
  | succ levels ih =>
    refine readLevel_toFields h ?_
    rintro shift base rfl
    exact ih h (Nat.le_of_succ_le_succ hlinks)

theorem isCanonical_of_readWithin {limit levels : Nat} {fields : Fields} {phrase : Phrase}
    (h : readWithin limit levels fields = .ok phrase) :
    phrase.IsCanonical ∧ phrase.links ≤ levels := by
  induction levels generalizing fields phrase with
  | zero =>
    refine isCanonical_of_readLevel ?_ h
    intro inner base hbase
    cases hbase
  | succ levels ih =>
    refine isCanonical_of_readLevel ?_ h
    intro inner base hbase
    obtain ⟨hcanonical, hlinks⟩ := ih hbase
    exact ⟨hcanonical, Nat.lt_succ_of_le hlinks⟩

/-- The calendar date that a phrase starts from, where it starts from one. -/
def calendar? : Phrase → Option CalendarPhrase
  | calendar c => some c
  | fromPhrase _ base => base.calendar?
  | _ => none

/-- A canonical phrase says which year it means, or leaves the year out. -/
theorem yearOr?_isSome {c : CalendarPhrase} (year : Int32) (h : phrase.IsCanonical)
    (hc : phrase.calendar? = some c) : (c.yearOr? year).isSome := by
  induction phrase with
  | calendar own =>
    obtain rfl : own = c := Option.some.inj hc
    rw [CalendarPhrase.yearOr?]
    cases hfound : own.year with
    | none => rfl
    | some token =>
      cases token with
      | digits text => exact h text hfound
      | full year => rfl
  | fromPhrase shift base ih => exact ih h hc
  | _ => cases hc

/-- **The phrases that fields hold** are the canonical ones whose depth is within the limit.
So the year of a phrase that was read can always be read. -/
theorem exists_fields_iff (phrase : Phrase) (limit : Nat) :
    ((∃ fields : Fields, fields.Ordered ∧ ofFields fields limit = .ok phrase) ↔
      phrase.links ≤ limit ∧ phrase.IsCanonical) ∧
    ∀ fields, ofFields fields limit = .ok phrase →
      ∀ c, phrase.calendar? = some c →
        (c.yearOr? CalendarPhrase.validationYear).isSome := by
  constructor
  · constructor
    · rintro ⟨fields, -, h⟩
      exact (isCanonical_of_readWithin h).symm
    · rintro ⟨hlinks, hcanonical⟩
      exact ⟨phrase.toFields, phrase.ordered_toFields, readWithin_toFields limit hcanonical hlinks⟩
  · intro fields h c hc
    exact yearOr?_isSome _ (isCanonical_of_readWithin h).1 hc

end Phrase

end SpokenDate
