/-
The grammar of fields.

Which fields hold a phrase is said here without any reader: which values a field may have,
which groups of fields exclude each other, and how deep phrases may be nested.  Reading
accepts exactly these fields.  In particular fields of two groups side by side are never
accepted, so no group is dropped in favour of another one.

* **`Fields.IsOffset`**, **`Fields.IsAbsolute`**, **`Fields.IsForm`**: the grammar of a level;
* **`Fields.IsPhrase`**: the grammar of all levels;
* **`exists_readSole_iff`**: a choice among groups accepts what the one group that is there
  accepts;
* **`exists_phrase_iff_isPhrase`**: reading accepts exactly the grammar.
-/
import SpokenDate.Proofs.Acceptance

namespace SpokenDate

variable {α : Type} {fields : Fields} {name : String} {value : Value}

/-! ### Values -/

namespace Value

/-- The value is the number `n`, or spells it. -/
def Counts : Value → Int → Prop
  | integer w, n => n = w.toInt
  | text s, n => Decimal.Spells s.toList n
  | _, _ => False

/-- A number that a word can hold. -/
def IsInteger (value : Value) : Prop :=
  ∃ n, value.Counts n ∧ -0x8000000000000000 ≤ n ∧ n < 0x8000000000000000

/-- A number from zero on that a word of 32 bits can hold. -/
def IsUnsigned (value : Value) : Prop := ∃ n, value.Counts n ∧ 0 ≤ n ∧ n < 0x100000000

/-- One of the words, in any case of its letters. -/
def IsWord (words : Vocabulary α) (value : Value) : Prop :=
  ∃ s, value = text s ∧ ∃ entry ∈ words, entry.1.toList = lower s

/-- The name of a month, or its number. -/
def IsMonth (value : Value) : Prop := value.IsWord CalendarPhrase.words ∨ value.IsUnsigned

/-- The name of a weekday, or any index. -/
def IsWeekday (value : Value) : Prop := value.IsWord WeekdayPhrase.words ∨ value.IsInteger

/-- The number of a day, or digits for it that at most one suffix follows. -/
def IsDay : Value → Prop
  | integer w => 0 ≤ w.toInt ∧ w.toInt < 0x100000000
  | text s =>
    ∃ digits, ∃ suffix ∈ ["", "st", "nd", "rd", "th"], lower s = digits ++ suffix.toList ∧
      Decimal.IsNumeral digits ∧ Decimal.value digits < 0x100000000
  | _ => False

/-- A year that a word of 32 bits can hold, digits for one, or fields that are read as a
year. -/
def IsYear : Value → Prop
  | integer w => -0x80000000 ≤ w.toInt ∧ w.toInt < 0x80000000
  | text s => Decimal.IsNumeral s.toList ∧ Decimal.value s.toList < 0x80000000
  | map inner => ∃ year, Year.ofFields inner = .ok year
  | _ => False

/-- The word `now` in any case of its letters, or a date. -/
def IsPoint : Value → Prop
  | text s => lower s = "now".toList
  | date _ => True
  | _ => False

/-- Fields of their own, which are `inside`. -/
def IsMap (inside : Fields → Prop) : Value → Prop
  | map inner => inside inner
  | _ => False

theorem IsMap.exists_eq {inside : Fields → Prop} (h : value.IsMap inside) :
    ∃ inner, value = map inner ∧ inside inner := by
  cases value with
  | map inner => exact ⟨inner, rfl, h⟩
  | _ => cases h

theorem integer?_eq_some_iff {w : Int64} : value.integer? = some w ↔ value.Counts w.toInt := by
  cases value with
  | integer n =>
    rw [integer?, Counts, Option.some_inj, Int64.toInt_inj]
    exact eq_comm
  | text s => rw [integer?_text, Decimal.integer?_eq_some_iff, Counts]
  | _ => simp [integer?, Counts]

theorem exists_integer?_iff : (∃ w, value.integer? = some w) ↔ value.IsInteger := by
  simp only [integer?_eq_some_iff]
  constructor
  · rintro ⟨w, hw⟩
    exact ⟨w.toInt, hw, w.le_toInt, w.toInt_lt⟩
  · rintro ⟨n, hn, hlo, hhi⟩
    exact ⟨Int64.ofInt n, (Int64.toInt_ofInt_of_le hlo hhi).symm ▸ hn⟩

theorem exists_unsigned?_iff : (∃ w, value.unsigned? = some w) ↔ value.IsUnsigned := by
  simp only [unsigned?, Option.bind_eq_some_iff, integer?_eq_some_iff,
    Checked.uint32?_eq_some_iff]
  constructor
  · rintro ⟨w, n, hn, hw⟩
    have := w.toNat_lt
    exact ⟨n.toInt, hn, by omega, by omega⟩
  · rintro ⟨n, hn, hlo, hhi⟩
    -- what fits into 32 bits fits into a word
    have hword := Int64.toInt_ofInt_of_le (n := n) (by omega) (by omega)
    refine ⟨UInt32.ofNat n.toNat, Int64.ofInt n, hword.symm ▸ hn, ?_⟩
    rw [hword, UInt32.toNat_ofNat_of_lt' (show n.toNat < 0x100000000 by omega)]
    omega

theorem exists_word_iff (words : Vocabulary α) :
    (∃ a, value.text?.bind words.meaning? = some a) ↔ value.IsWord words := by
  cases value with
  | text s => simp [text?, IsWord, Vocabulary.exists_meaning?_iff]
  | _ => simp [text?, IsWord]

theorem exists_or_iff {first second : Option α} :
    (∃ a, first.or second = some a) ↔ (∃ a, first = some a) ∨ ∃ a, second = some a := by
  simp only [← Option.isSome_iff_exists, Option.isSome_or, Bool.or_eq_true]

theorem exists_month?_iff : (∃ month, value.month? = some month) ↔ value.IsMonth := by
  rw [IsMonth, ← exists_word_iff, ← exists_unsigned?_iff]
  exact exists_or_iff

theorem exists_weekday?_iff : (∃ weekday, value.weekday? = some weekday) ↔ value.IsWeekday := by
  rw [IsWeekday, ← exists_word_iff, ← exists_integer?_iff]
  exact exists_or_iff

theorem exists_unit?_iff :
    (∃ unit, value.unit? = some unit) ↔ value.IsWord CalendarUnit.words :=
  exists_word_iff CalendarUnit.words

theorem exists_day?_iff : (∃ day, value.day? = some day) ↔ value.IsDay := by
  cases value with
  | integer w =>
    simp only [day?, exists_unsigned?_iff, IsUnsigned, Counts, exists_eq_left, IsDay]
  | text s =>
    simp only [day?_text, Decimal.ordinal?_eq_some_iff, IsDay, Decimal.natural?_eq_some_iff]
    constructor
    · rintro ⟨n, digits, suffix, hsuffix, hlower, hnumeral, hvalue⟩
      exact ⟨digits, suffix, hsuffix, hlower, hnumeral, hvalue ▸ n.toNat_lt⟩
    · rintro ⟨digits, suffix, hsuffix, hlower, hnumeral, hvalue⟩
      exact ⟨UInt32.ofNat (Decimal.value digits), digits, suffix, hsuffix, hlower, hnumeral,
        (UInt32.toNat_ofNat_of_lt' hvalue).symm⟩
  | _ => simp [day?, unsigned?, integer?, IsDay]

/-- A single value is a year as the grammar says, and fields of its own are no single value. -/
theorem exists_year?_iff (h : ∀ inner, value ≠ map inner) :
    (∃ year, value.year? = some year) ↔ value.IsYear := by
  cases value with
  | integer w =>
    simp only [year?, Option.map_eq_some_iff, Checked.int32?_eq_some_iff, IsYear]
    constructor
    · rintro ⟨_, n, hn, rfl⟩
      exact ⟨hn ▸ n.le_toInt, hn ▸ n.toInt_lt⟩
    · rintro ⟨hlo, hhi⟩
      exact ⟨_, Int32.ofInt w.toInt, Int32.toInt_ofInt_of_le hlo hhi, rfl⟩
  | text s =>
    rw [IsYear, ← Year.exists_expand?_iff, ← Option.isSome_iff_exists,
      ← Option.isSome_iff_exists, year?]
    split <;> simp_all
  | map inner => exact absurd rfl (h inner)
  | _ => simp [year?, IsYear]

theorem exists_point?_iff : (∃ point, value.point? = some point) ↔ value.IsPoint := by
  cases value with
  | text s =>
    rw [point?, IsPoint]
    split <;> simp_all
  | _ => simp [point?, IsPoint]

end Value

/-! ### Fields and groups of fields -/

namespace Fields

/-- The field called `name` is absent, or its value is one of those. -/
def Holds (fields : Fields) (name : String) (values : Value → Prop) : Prop :=
  ∀ value, fields.get? name = some value → values value

/-- The groups of which some field is present. -/
def present (fields : Fields) (groups : List (List String)) : List (List String) :=
  groups.filter fields.containsAny

/-- The counts of a duration. -/
def IsDuration (fields : Fields) : Prop :=
  ∀ name ∈ ["days", "weeks", "months", "years"], fields.Holds name Value.IsInteger

/-- The fields of an offset, all of them from one group. -/
structure IsOffset (fields : Fields) : Prop where
  sole : (fields.present
    [["duration", "direction"], ["num", "type"], ["days", "weeks", "months", "years"]]).length ≤ 1
  duration : fields.Holds "duration" (Value.IsMap IsDuration)
  direction : fields.Holds "direction" Value.IsInteger
  num : fields.Holds "num" Value.IsInteger
  type : fields.Holds "type" (Value.IsWord CalendarUnit.words)
  units : fields.IsDuration

/-- The fields of an absolute date, all of them from one group. -/
structure IsAbsolute (fields : Fields) : Prop where
  sole : (fields.present [["weekday", "distance"], ["month", "day", "year"]]).length ≤ 1
  weekday : fields.Holds "weekday" Value.IsWeekday
  distance : fields.Holds "distance" Value.IsInteger
  month : fields.Holds "month" Value.IsMonth
  day : fields.Holds "day" Value.IsDay
  year : fields.Holds "year" Value.IsYear

/-- The fields of exactly one form of a phrase, where those of a nested phrase are `inside`. -/
structure IsForm (inside : Fields → Prop) (fields : Fields) : Prop where
  sole : (fields.present
    [["relative"], ["absolute"], ["duration", "direction", "date"]]).length = 1
  relative : fields.Holds "relative" (Value.IsMap IsOffset)
  absolute : fields.Holds "absolute" (Value.IsMap IsAbsolute)
  duration : fields.Holds "duration" (Value.IsMap IsDuration)
  direction : fields.Holds "direction" Value.IsInteger
  date : fields.Holds "date" fun value => value.IsPoint ∨ value.IsMap inside

/-- The fields of a phrase inside which at most `levels` others are nested, one in the
other. -/
def IsPhrase : (levels : Nat) → Fields → Prop
  | 0, fields => fields.isEmpty = true ∨ fields.IsForm fun _ => False
  | levels + 1, fields => fields.isEmpty = true ∨ fields.IsForm (IsPhrase levels)

variable {values : Value → Prop} {names : List String}

theorem holds_of_absent (h : fields.get? name = none) : fields.Holds name values := by
  intro value hvalue
  rw [h] at hvalue
  cases hvalue

theorem holds_of_containsAny (h : fields.containsAny names = false) (hname : name ∈ names) :
    fields.Holds name values :=
  holds_of_absent (containsAny_eq_false_iff.1 h name hname)

theorem holds_of_get? (hvalue : fields.get? name = some value) (h : values value) :
    fields.Holds name values := by
  intro other hother
  rw [hvalue] at hother
  cases hother
  exact h

/-- How many of the forms of a phrase are there. -/
theorem length_present_forms :
    (fields.present [["relative"], ["absolute"], ["duration", "direction", "date"]]).length =
      (fields.get? "relative").isSome.toNat + (fields.get? "absolute").isSome.toNat +
        (fields.containsAny Phrase.shiftNames).toNat := by
  have hsingle : ∀ name, fields.containsAny [name] = (fields.get? name).isSome := fun name =>
    Bool.or_false _
  rw [present, ← Phrase.shiftNames]
  simp only [List.filter_cons, List.filter_nil, hsingle]
  cases (fields.get? "relative").isSome <;> cases (fields.get? "absolute").isSome <;>
    cases fields.containsAny Phrase.shiftNames <;> rfl

/-- Reading a field does not fail exactly where its value is one of those with a meaning. -/
theorem exists_read_iff {reader : Reader α}
    (h : ∀ value, fields.get? name = some value →
      ((∃ a, reader.meaning? value = some a) ↔ values value)) :
    (∃ found, fields.read name reader = .ok found) ↔ fields.Holds name values := by
  simp only [read_eq_ok_iff]
  cases hvalue : fields.get? name with
  | none =>
    constructor
    · intro _
      exact holds_of_absent hvalue
    · intro _
      exact ⟨none, rfl⟩
  | some value =>
    have hmeaning := h value hvalue
    constructor
    · rintro ⟨found, hsome, rfl⟩ other hother
      rw [hvalue] at hother
      cases hother
      exact hmeaning.1 (Option.isSome_iff_exists.1 hsome)
    · intro hholds
      obtain ⟨a, ha⟩ := hmeaning.2 (hholds value hvalue)
      exact ⟨some a, rfl, ha.symm⟩

theorem exists_read_integer_iff :
    (∃ found, fields.read name .integer = .ok found) ↔ fields.Holds name Value.IsInteger :=
  exists_read_iff fun _ _ => Value.exists_integer?_iff

/-- **A choice among groups accepts** fields of at most one group, which that group accepts. -/
theorem exists_readSole_iff {groups : List (FieldGroup α)}
    {otherwise : Fields → Except ReadError α} :
    (∃ a, fields.readSole groups otherwise = .ok a) ↔
      (fields.present (groups.map FieldGroup.names)).length ≤ 1 ∧
      (∀ group ∈ groups, fields.containsAny group.names = true →
        ∃ a, group.read fields = .ok a) ∧
      ((∀ group ∈ groups, fields.containsAny group.names = false) →
        ∃ a, otherwise fields = .ok a) := by
  have hlength : (fields.present (groups.map FieldGroup.names)).length =
      (groups.filter fun group => fields.containsAny group.names).length := by
    rw [present, List.filter_map, List.length_map]
    rfl
  have hmem : ∀ group, group ∈ groups.filter (fun group => fields.containsAny group.names) ↔
      group ∈ groups ∧ fields.containsAny group.names = true := fun group => List.mem_filter
  rw [hlength, readSole]
  generalize groups.filter (fun group => fields.containsAny group.names) = found at hmem
  cases found with
  | nil =>
    have habsent : ∀ group ∈ groups, fields.containsAny group.names = false := by
      intro group hgroup
      refine Bool.eq_false_iff.2 fun h => ?_
      cases (hmem group).2 ⟨hgroup, h⟩
    constructor
    · intro h
      refine ⟨Nat.zero_le 1, fun group hgroup hpresent => ?_, fun _ => h⟩
      rw [habsent group hgroup] at hpresent
      cases hpresent
    · rintro ⟨-, -, h⟩
      exact h habsent
  | cons group rest =>
    cases rest with
    | nil =>
      obtain ⟨hgroup, hpresent⟩ := (hmem group).1 List.mem_cons_self
      constructor
      · intro h
        refine ⟨Nat.le_refl 1, fun other hother hothers => ?_, fun habsent => ?_⟩
        · rw [List.mem_singleton.1 ((hmem other).2 ⟨hother, hothers⟩)]
          exact h
        · rw [habsent group hgroup] at hpresent
          cases hpresent
      · rintro ⟨-, h, -⟩
        exact h group hgroup hpresent
    | cons second rest =>
      constructor
      · rintro ⟨a, ha⟩
        cases ha
      · rintro ⟨h, -, -⟩
        simp at h

/-- What holds without the fields of a group need only be asked where one of them is there. -/
theorem forall_containsAny_iff {p : Prop} (h : fields.containsAny names = false → p) :
    (fields.containsAny names = true → p) ↔ p := by
  cases hnames : fields.containsAny names with
  | false => exact ⟨fun _ => h hnames, fun hp _ => hp⟩
  | true => exact ⟨fun hp => hp rfl, fun hp _ => hp⟩

end Fields

/-! ### Levels -/

theorem Duration.exists_ofFields_iff :
    (∃ duration, Duration.ofFields fields = .ok duration) ↔ fields.IsDuration := by
  simp only [Duration.ofFields_eq_ok_iff, Fields.IsDuration, List.forall_mem_cons,
    List.not_mem_nil, false_implies, implies_true, and_true, ← Fields.exists_read_integer_iff]
  constructor
  · rintro ⟨duration, hdays, hweeks, hmonths, hyears⟩
    exact ⟨⟨_, hdays⟩, ⟨_, hweeks⟩, ⟨_, hmonths⟩, ⟨_, hyears⟩⟩
  · rintro ⟨⟨days, hdays⟩, ⟨weeks, hweeks⟩, ⟨months, hmonths⟩, ⟨years, hyears⟩⟩
    exact ⟨⟨days, weeks, months, years⟩, hdays, hweeks, hmonths, hyears⟩

theorem Shift.exists_ofFields_iff :
    (∃ shift, Shift.ofFields fields = .ok shift) ↔
      fields.Holds "duration" (Value.IsMap Fields.IsDuration) ∧
        fields.Holds "direction" Value.IsInteger := by
  simp only [Shift.ofFields_eq_ok_iff, ← Fields.exists_read_integer_iff]
  constructor
  · rintro ⟨⟨duration, direction⟩, hduration, hdirection⟩
    refine ⟨?_, direction, hdirection⟩
    cases duration with
    | none => exact Fields.holds_of_absent hduration
    | some duration =>
      obtain ⟨units, hunits, hread⟩ := hduration
      intro value hvalue
      rw [hunits] at hvalue
      cases hvalue
      exact Duration.exists_ofFields_iff.1 ⟨duration, hread⟩
  · rintro ⟨hduration, direction, hdirection⟩
    cases hvalue : fields.get? "duration" with
    | none => exact ⟨⟨none, direction⟩, rfl, hdirection⟩
    | some value =>
      obtain ⟨units, rfl, hunits⟩ := (hduration value hvalue).exists_eq
      obtain ⟨duration, hread⟩ := Duration.exists_ofFields_iff.2 hunits
      exact ⟨⟨some duration, direction⟩, ⟨units, rfl, hread⟩, hdirection⟩

theorem WeekdayPhrase.exists_ofFields_iff :
    (∃ phrase, WeekdayPhrase.ofFields fields = .ok phrase) ↔
      fields.Holds "weekday" Value.IsWeekday ∧ fields.Holds "distance" Value.IsInteger := by
  have hweekday : (∃ found, fields.read "weekday" .weekday = .ok found) ↔
      fields.Holds "weekday" Value.IsWeekday :=
    Fields.exists_read_iff fun _ _ => Value.exists_weekday?_iff
  simp only [WeekdayPhrase.ofFields_eq_ok_iff, ← hweekday, ← Fields.exists_read_integer_iff]
  constructor
  · rintro ⟨phrase, hweekday, hdistance⟩
    exact ⟨⟨_, hweekday⟩, ⟨_, hdistance⟩⟩
  · rintro ⟨⟨weekday, hweekday⟩, ⟨distance, hdistance⟩⟩
    exact ⟨⟨weekday, distance⟩, hweekday, hdistance⟩

theorem CalendarPhrase.exists_readYear_iff :
    (∃ year, CalendarPhrase.readYear fields = .ok year) ↔ fields.Holds "year" Value.IsYear := by
  rw [CalendarPhrase.readYear]
  split
  · rename_i inner hinner
    constructor
    · intro h value hvalue
      rw [hinner] at hvalue
      cases hvalue
      exact h
    · intro h
      exact h _ hinner
  · rename_i hsingle
    refine Fields.exists_read_iff fun value hvalue => Value.exists_year?_iff ?_
    rintro inner rfl
    exact hsingle inner hvalue

theorem CalendarPhrase.exists_ofFields_iff :
    (∃ phrase, CalendarPhrase.ofFields fields = .ok phrase) ↔
      fields.Holds "month" Value.IsMonth ∧ fields.Holds "day" Value.IsDay ∧
        fields.Holds "year" Value.IsYear := by
  have hmonth : (∃ found, fields.read "month" .month = .ok found) ↔
      fields.Holds "month" Value.IsMonth :=
    Fields.exists_read_iff fun _ _ => Value.exists_month?_iff
  have hday : (∃ found, fields.read "day" .day = .ok found) ↔ fields.Holds "day" Value.IsDay :=
    Fields.exists_read_iff fun _ _ => Value.exists_day?_iff
  simp only [CalendarPhrase.ofFields_eq_ok_iff, ← hmonth, ← hday,
    ← CalendarPhrase.exists_readYear_iff]
  constructor
  · rintro ⟨phrase, hmonth, hday, hyear⟩
    exact ⟨⟨_, hmonth⟩, ⟨_, hday⟩, ⟨_, hyear⟩⟩
  · rintro ⟨⟨month, hmonth⟩, ⟨day, hday⟩, ⟨year, hyear⟩⟩
    exact ⟨⟨month, day, year⟩, hmonth, hday, hyear⟩

/-- What is put into a form is accepted where it is. -/
theorem exists_return_iff {β : Type} {outcome : Except ReadError α} {form : α → β} :
    (∃ b, (do return form (← outcome)) = (.ok b : Except ReadError β)) ↔
      ∃ a, outcome = .ok a := by
  simp only [return_eq_ok_iff]
  constructor
  · rintro ⟨_, a, rfl, ha⟩
    exact ⟨a, ha⟩
  · rintro ⟨a, ha⟩
    exact ⟨form a, a, rfl, ha⟩

theorem Offset.exists_readAdjacent_iff :
    (∃ offset, Offset.readAdjacent fields = .ok offset) ↔
      fields.Holds "num" Value.IsInteger ∧
        fields.Holds "type" (Value.IsWord CalendarUnit.words) := by
  have htype : (∃ found, fields.read "type" .unit = .ok found) ↔
      fields.Holds "type" (Value.IsWord CalendarUnit.words) :=
    Fields.exists_read_iff fun _ _ => Value.exists_unit?_iff
  simp only [Offset.readAdjacent_eq_ok_iff, ← htype, ← Fields.exists_read_integer_iff]
  constructor
  · rintro ⟨_, unit, step, -, hunit, hstep⟩
    exact ⟨⟨step, hstep⟩, ⟨unit, hunit⟩⟩
  · rintro ⟨⟨step, hstep⟩, ⟨unit, hunit⟩⟩
    exact ⟨.adjacent unit step, unit, step, rfl, hunit, hstep⟩

theorem Offset.exists_ofFields_iff :
    (∃ offset, Offset.ofFields fields = .ok offset) ↔ fields.IsOffset := by
  -- a group that is absent asks nothing of its fields
  have hcounted : (fields.containsAny ["duration", "direction"] = true →
      ∃ offset, readCounted fields = .ok offset) ↔
        fields.Holds "duration" (Value.IsMap Fields.IsDuration) ∧
          fields.Holds "direction" Value.IsInteger := by
    rw [readCounted, exists_return_iff, Shift.exists_ofFields_iff]
    exact Fields.forall_containsAny_iff fun h => ⟨Fields.holds_of_containsAny h (by simp),
      Fields.holds_of_containsAny h (by simp)⟩
  have hadjacent : (fields.containsAny ["num", "type"] = true →
      ∃ offset, readAdjacent fields = .ok offset) ↔
        fields.Holds "num" Value.IsInteger ∧
          fields.Holds "type" (Value.IsWord CalendarUnit.words) := by
    rw [exists_readAdjacent_iff]
    exact Fields.forall_containsAny_iff fun h => ⟨Fields.holds_of_containsAny h (by simp),
      Fields.holds_of_containsAny h (by simp)⟩
  have hread : (∃ offset, readNamed fields = .ok offset) ↔ fields.IsDuration := by
    rw [readNamed, exists_return_iff, Duration.exists_ofFields_iff]
  have hnamed : (fields.containsAny ["days", "weeks", "months", "years"] = true →
      fields.IsDuration) ↔ fields.IsDuration :=
    Fields.forall_containsAny_iff fun h name hname => Fields.holds_of_containsAny h hname
  rw [Offset.ofFields, Fields.exists_readSole_iff]
  simp only [groups, List.forall_mem_cons, List.not_mem_nil, false_implies, implies_true, and_true,
    List.map_cons, List.map_nil, hcounted, hadjacent, hnamed, hread]
  constructor
  · rintro ⟨hsole, ⟨⟨hduration, hdirection⟩, ⟨hnum, htype⟩, hunits⟩, -⟩
    exact ⟨hsole, hduration, hdirection, hnum, htype, hunits⟩
  · rintro ⟨hsole, hduration, hdirection, hnum, htype, hunits⟩
    exact ⟨hsole, ⟨⟨hduration, hdirection⟩, ⟨hnum, htype⟩, hunits⟩, fun _ => hunits⟩

namespace Phrase

variable {nested : Fields → Except ReadError Phrase} {inside : Fields → Prop}

theorem exists_readAbsolute_iff :
    (∃ phrase, readAbsolute fields = .ok phrase) ↔ fields.IsAbsolute := by
  have hweekday : (fields.containsAny ["weekday", "distance"] = true →
      ∃ phrase, readWeekday fields = .ok phrase) ↔
        fields.Holds "weekday" Value.IsWeekday ∧ fields.Holds "distance" Value.IsInteger := by
    rw [readWeekday, exists_return_iff, WeekdayPhrase.exists_ofFields_iff]
    exact Fields.forall_containsAny_iff fun h => ⟨Fields.holds_of_containsAny h (by simp),
      Fields.holds_of_containsAny h (by simp)⟩
  have hread : (∃ phrase, readCalendar fields = .ok phrase) ↔
      fields.Holds "month" Value.IsMonth ∧ fields.Holds "day" Value.IsDay ∧
        fields.Holds "year" Value.IsYear := by
    rw [readCalendar, exists_return_iff, CalendarPhrase.exists_ofFields_iff]
  have hcalendar : (fields.containsAny ["month", "day", "year"] = true →
      fields.Holds "month" Value.IsMonth ∧ fields.Holds "day" Value.IsDay ∧
        fields.Holds "year" Value.IsYear) ↔
      fields.Holds "month" Value.IsMonth ∧ fields.Holds "day" Value.IsDay ∧
        fields.Holds "year" Value.IsYear :=
    Fields.forall_containsAny_iff fun h => ⟨Fields.holds_of_containsAny h (by simp),
      Fields.holds_of_containsAny h (by simp), Fields.holds_of_containsAny h (by simp)⟩
  rw [readAbsolute, Fields.exists_readSole_iff]
  simp only [absoluteGroups, List.forall_mem_cons, List.not_mem_nil, false_implies, implies_true,
    and_true, List.map_cons, List.map_nil, hweekday, hcalendar, hread]
  constructor
  · rintro ⟨hsole, ⟨⟨hweekday, hdistance⟩, hmonth, hday, hyear⟩, -⟩
    exact ⟨hsole, hweekday, hdistance, hmonth, hday, hyear⟩
  · rintro ⟨hsole, hweekday, hdistance, hmonth, hday, hyear⟩
    exact ⟨hsole, ⟨⟨hweekday, hdistance⟩, hmonth, hday, hyear⟩, fun _ => ⟨hmonth, hday, hyear⟩⟩

theorem exists_readShifted_iff
    (hnested : ∀ inner, (∃ phrase, nested inner = .ok phrase) ↔ inside inner) :
    (∃ phrase, readShifted nested fields = .ok phrase) ↔
      fields.Holds "duration" (Value.IsMap Fields.IsDuration) ∧
        fields.Holds "direction" Value.IsInteger ∧
        fields.Holds "date" fun value => value.IsPoint ∨ value.IsMap inside := by
  have hread : (∃ point, fields.read "date" .point = .ok point) ↔
      fields.Holds "date" Value.IsPoint :=
    Fields.exists_read_iff fun _ _ => Value.exists_point?_iff
  simp only [readShifted_eq_ok_iff, ← and_assoc, ← Shift.exists_ofFields_iff]
  constructor
  · rintro ⟨phrase, ⟨shift, base, inner, ⟨⟨-, hshift⟩, hinner⟩, hbase⟩ |
      ⟨shift, point, ⟨-, hshift⟩, hpoint⟩⟩
    · refine ⟨⟨shift, hshift⟩, fun value hvalue => .inr ?_⟩
      rw [hinner] at hvalue
      cases hvalue
      exact (hnested inner).1 ⟨base, hbase⟩
    · refine ⟨⟨shift, hshift⟩, fun value hvalue => .inl ?_⟩
      exact hread.1 ⟨point, hpoint⟩ value hvalue
  · rintro ⟨⟨shift, hshift⟩, hdate⟩
    by_cases hmap : ∃ inner, fields.get? "date" = some (.map inner)
    · obtain ⟨inner, hinner⟩ := hmap
      have hinside := (hdate _ hinner).resolve_left id
      obtain ⟨base, hbase⟩ := (hnested inner).2 hinside
      exact ⟨_, .inl ⟨shift, base, inner, ⟨⟨rfl, hshift⟩, hinner⟩, hbase⟩⟩
    · -- what is not a map has to be a point
      have hpoints : fields.Holds "date" Value.IsPoint := by
        intro value hvalue
        refine (hdate value hvalue).resolve_right fun h => ?_
        cases value with
        | map inner => exact hmap ⟨inner, hvalue⟩
        | _ => exact h
      obtain ⟨point, hpoint⟩ := hread.2 hpoints
      exact ⟨_, .inr ⟨shift, point, ⟨rfl, hshift⟩, hpoint⟩⟩

theorem exists_readOffset_iff :
    (∃ phrase, readOffset fields = .ok phrase) ↔ fields.IsOffset := by
  rw [readOffset, exists_return_iff, Offset.exists_ofFields_iff]

/-- What is read at a level is no field at all, or the fields of exactly one form. -/
theorem isForm_of_readLevel {phrase : Phrase}
    (hnested : ∀ inner, (∃ phrase, nested inner = .ok phrase) ↔ inside inner)
    (h : readLevel nested fields = .ok phrase) :
    fields.isEmpty = true ∨ fields.IsForm inside := by
  rcases readLevel_eq_ok_iff.1 h with ⟨hempty, -⟩ |
    ⟨inner, hrelative, habsolute, hshifted, hread⟩ |
    ⟨inner, hrelative, habsolute, hshifted, hread⟩ | ⟨hrelative, habsolute, hshifted, hread⟩
  · exact .inl hempty
  · refine .inr ⟨?_, Fields.holds_of_get? hrelative (exists_readOffset_iff.1 ⟨phrase, hread⟩),
      Fields.holds_of_absent habsolute, ?_, ?_, ?_⟩
    · rw [Fields.length_present_forms, hrelative, habsolute, hshifted]
      rfl
    all_goals exact Fields.holds_of_containsAny hshifted (by simp [shiftNames])
  · refine .inr ⟨?_, Fields.holds_of_absent hrelative,
      Fields.holds_of_get? habsolute (exists_readAbsolute_iff.1 ⟨phrase, hread⟩), ?_, ?_, ?_⟩
    · rw [Fields.length_present_forms, hrelative, habsolute, hshifted]
      rfl
    all_goals exact Fields.holds_of_containsAny hshifted (by simp [shiftNames])
  · obtain ⟨hduration, hdirection, hdate⟩ := (exists_readShifted_iff hnested).1 ⟨phrase, hread⟩
    refine .inr ⟨?_, Fields.holds_of_absent hrelative, Fields.holds_of_absent habsolute,
      hduration, hdirection, hdate⟩
    rw [Fields.length_present_forms, hrelative, habsolute, hshifted]
    rfl

/-- The fields of exactly one form are read as that form. -/
theorem exists_readLevel_of_isForm
    (hnested : ∀ inner, (∃ phrase, nested inner = .ok phrase) ↔ inside inner)
    (h : fields.IsForm inside) : ∃ phrase, readLevel nested fields = .ok phrase := by
  obtain ⟨hsole, hrelative, habsolute, hduration, hdirection, hdate⟩ := h
  rw [Fields.length_present_forms] at hsole
  -- one of the three forms is there, and the other two are not
  cases hr : fields.get? "relative" <;> cases ha : fields.get? "absolute" <;>
    cases hs : fields.containsAny shiftNames <;> rw [hr, ha, hs] at hsole
  case none.none.true =>
    obtain ⟨phrase, hread⟩ := (exists_readShifted_iff hnested).2 ⟨hduration, hdirection, hdate⟩
    exact ⟨phrase, readLevel_eq_ok_iff.2 (.inr (.inr (.inr ⟨hr, ha, hs, hread⟩)))⟩
  case none.some.false value =>
    obtain ⟨inner, rfl, hinside⟩ := (habsolute value ha).exists_eq
    obtain ⟨phrase, hread⟩ := exists_readAbsolute_iff.2 hinside
    exact ⟨phrase, readLevel_eq_ok_iff.2 (.inr (.inr (.inl ⟨inner, hr, ha, hs, hread⟩)))⟩
  case some.none.false value =>
    obtain ⟨inner, rfl, hinside⟩ := (hrelative value hr).exists_eq
    obtain ⟨phrase, hread⟩ := exists_readOffset_iff.2 hinside
    exact ⟨phrase, readLevel_eq_ok_iff.2 (.inr (.inl ⟨inner, hr, ha, hs, hread⟩))⟩
  all_goals cases hsole

/-- **One level** is accepted where it holds nothing or the fields of exactly one form. -/
theorem exists_readLevel_iff
    (hnested : ∀ inner, (∃ phrase, nested inner = .ok phrase) ↔ inside inner) :
    (∃ phrase, readLevel nested fields = .ok phrase) ↔
      fields.isEmpty = true ∨ fields.IsForm inside := by
  constructor
  · rintro ⟨phrase, h⟩
    exact isForm_of_readLevel hnested h
  · rintro (hempty | hform)
    · exact ⟨.empty, readLevel_eq_ok_iff.2 (.inl ⟨hempty, rfl⟩)⟩
    · exact exists_readLevel_of_isForm hnested hform

theorem exists_readWithin_iff (limit levels : Nat) (fields : Fields) :
    (∃ phrase, readWithin limit levels fields = .ok phrase) ↔ fields.IsPhrase levels := by
  induction levels generalizing fields with
  | zero =>
    refine exists_readLevel_iff fun inner => ?_
    constructor
    · rintro ⟨phrase, h⟩
      cases h
    · exact False.elim
  | succ levels ih => exact exists_readLevel_iff ih

/-- **Reading accepts exactly the grammar.** -/
theorem exists_phrase_iff_isPhrase (fields : Fields) (limit : Nat) :
    (∃ phrase, ofFields fields limit = .ok phrase) ↔ fields.IsPhrase limit :=
  exists_readWithin_iff limit limit fields

end Phrase

end SpokenDate
