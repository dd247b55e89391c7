/-
What errors say.

Reading stops at the first fault and returns an error that describes it.  What the error says is
so: reading comes to a map that has the field, with a value of the kind that is named, and the
field asks for another one; or to a map that has fields of two groups, or none that is known; or
more phrases are nested inside each other than the limit allows.

* **`Level.checks`**: what the fields of a level ask of their values, said without any reader;
* **`Reaches`**: the maps that reading comes to, and through how many nested phrases;
* **`Fault`**: the faults of a map, each with the error that describes it;
* **`failsOnly_readLevel`**: the errors of one level;
* **`exists_fault_of_ofFields`**: the errors of a whole phrase.
-/
import SpokenDate.Proofs.Grammar
import SpokenDate.Proofs.Level

namespace SpokenDate

variable {α β : Type} {fields : Fields} {name : String} {level : Level} {e : ReadError}

/-! ### What fields ask of their values -/

/-- A number that leads to a year when it is counted from the start of a century, where words of
32 bits can hold both. -/
def Value.IsYearSince (century : Int) (value : Value) : Prop :=
  ∃ n, value.Counts n ∧ (-0x80000000 ≤ n ∧ n < 0x80000000) ∧
    -0x80000000 ≤ century + n ∧ century + n < 0x80000000

theorem Value.exists_yearSince?_iff {century : Int} {value : Value} :
    (∃ year, value.yearSince? century = some year) ↔ value.IsYearSince century := by
  simp only [yearSince?, short?, Option.bind_eq_bind, Option.bind_eq_some_iff,
    integer?_eq_some_iff, Checked.int32?_eq_some_iff]
  constructor
  · rintro ⟨year, years, ⟨w, hw, hyears⟩, sum, hsum, -⟩
    have := years.le_toInt
    have := years.toInt_lt
    have := sum.le_toInt
    have := sum.toInt_lt
    exact ⟨w.toInt, hw, by omega, by omega, by omega⟩
  · rintro ⟨n, hn, ⟨hlo, hhi⟩, hlow, hhigh⟩
    -- what fits into 32 bits fits into a word
    have hword := Int64.toInt_ofInt_of_le (n := n) (by omega) (by omega)
    have hyears := Int32.toInt_ofInt_of_le hlo hhi
    have hsum := Int32.toInt_ofInt_of_le hlow hhigh
    refine ⟨.full (Int32.ofInt (century + n)), Int32.ofInt n, ⟨Int64.ofInt n, ?_, ?_⟩,
      Int32.ofInt (century + n), ?_, rfl⟩
    · exact hword.symm ▸ hn
    · rw [hyears, hword]
    · rw [hsum, hyears]

/-- What a field asks of its value. -/
structure Check where
  admits : Value → Prop
  expected : Expectation

namespace Check

def integer : Check := ⟨Value.IsInteger, .integer⟩

def map : Check := ⟨Value.IsMap fun _ => True, .map⟩

def month : Check := ⟨Value.IsMonth, .month⟩

def day : Check := ⟨Value.IsDay, .day⟩

def weekday : Check := ⟨Value.IsWeekday, .weekday⟩

def unit : Check := ⟨Value.IsWord CalendarUnit.words, .unit⟩

/-- A year as a single value, or a map, whose fields have their own checks. -/
def year : Check := ⟨fun value => value.IsYear ∨ value.IsMap fun _ => True, .year⟩

def yearSince (century : Int) : Check := ⟨Value.IsYearSince century, .digits⟩

/-- A point, or a map, whose fields have their own checks. -/
def start : Check := ⟨fun value => value.IsPoint ∨ value.IsMap fun _ => True, .start⟩

end Check

/-- The checks of the fields of a level. -/
def Level.checks : Level → List (String × Check)
  | phrase => [("relative", .map), ("absolute", .map), ("duration", .map),
      ("direction", .integer), ("date", .start)]
  | offset => [("duration", .map), ("direction", .integer), ("num", .integer), ("type", .unit),
      ("days", .integer), ("weeks", .integer), ("months", .integer), ("years", .integer)]
  | units => [("days", .integer), ("weeks", .integer), ("months", .integer),
      ("years", .integer)]
  | absolute => [("weekday", .weekday), ("distance", .integer), ("month", .month),
      ("day", .day), ("year", .year)]
  | century => [("year20", .yearSince 2000), ("year19", .yearSince 1900),
      ("year", .yearSince 0)]

/-! ### Faults -/

/-- The faults of a map of some level, each with the error that describes it. -/
inductive Fault : Level → Fields → ReadError → Prop where
  /-- A value is not what its field asks for. -/
  | value {level : Level} {fields : Fields} {name : String} {check : Check} {value : Value}
      (hcheck : (name, check) ∈ level.checks) (hvalue : fields.get? name = some value)
      (hrefused : ¬check.admits value) :
      Fault level fields (.invalidField name check.expected value.kind)
  /-- There are fields, and none of them belongs to a form of phrase. -/
  | unknown {fields : Fields} (hfields : fields.isEmpty = false)
      (hnone : fields.present Level.phrase.groups = []) :
      Fault .phrase fields (.noDateFields fields.names)
  /-- There are fields of two forms of phrase. -/
  | forms {fields : Fields} (htwo : 2 ≤ (fields.present Level.phrase.groups).length) :
      Fault .phrase fields .exclusiveForms
  /-- Inside a form, there are fields of two groups. -/
  | groups {level : Level} {fields : Fields} (hlevel : level ≠ .phrase)
      (htwo : 2 ≤ (fields.present level.groups).length) :
      Fault level fields (.mixedGroups (fields.present level.groups))

/-- How many phrases a map of this level adds to those that it lies in. -/
def Level.nesting : Level → Nat
  | phrase => 1
  | _ => 0

/-- Reading comes from one map to another, through so many nested phrases. -/
inductive Reaches : Level → Fields → Nat → Level → Fields → Prop where
  | here {level : Level} {fields : Fields} : Reaches level fields 0 level fields
  | inside {level deeper last : Level} {fields inner found : Fields} {name : String}
      {depth : Nat} (hname : (name, deeper) ∈ level.inside)
      (hinner : fields.get? name = some (.map inner))
      (hrest : Reaches deeper inner depth last found) :
      Reaches level fields (depth + deeper.nesting) last found

/-- The error describes a fault of the map or of a map inside it, but of no nested phrase. -/
def Blames (level : Level) (fields : Fields) (e : ReadError) : Prop :=
  ∃ last found, Reaches level fields 0 last found ∧ Fault last found e

theorem Fault.blames (h : Fault level fields e) : Blames level fields e :=
  ⟨level, fields, .here, h⟩

theorem Blames.inside {deeper : Level} {inner : Fields} (hname : (name, deeper) ∈ level.inside)
    (hnesting : deeper.nesting = 0) (hinner : fields.get? name = some (.map inner))
    (h : Blames deeper inner e) : Blames level fields e := by
  obtain ⟨last, found, hreaches, hfault⟩ := h
  have hinside := Reaches.inside hname hinner hreaches
  rw [hnesting] at hinside
  exact ⟨last, found, hinside, hfault⟩

/-! ### Outcomes that fail for a reason -/

/-- If the outcome is an error, then one with the property. -/
def FailsOnly (P : ReadError → Prop) (outcome : Except ReadError α) : Prop :=
  ∀ e, outcome = .error e → P e

section FailsOnly

variable {P Q : ReadError → Prop} {outcome : Except ReadError α}

theorem failsOnly_ok (a : α) : FailsOnly P (.ok a) := by
  intro e h
  cases h

theorem failsOnly_error (h : P e) : FailsOnly P (.error e : Except ReadError α) := by
  rintro e ⟨⟩
  exact h

theorem FailsOnly.mono (h : FailsOnly P outcome) (hPQ : ∀ e, P e → Q e) : FailsOnly Q outcome :=
  fun e he => hPQ e (h e he)

theorem FailsOnly.bind {next : α → Except ReadError β} (h : FailsOnly P outcome)
    (hnext : ∀ a, outcome = .ok a → FailsOnly P (next a)) : FailsOnly P (outcome >>= next) := by
  cases outcome with
  | error e => exact failsOnly_error (h e rfl)
  | ok a => exact hnext a rfl

theorem FailsOnly.map {form : α → β} (h : FailsOnly P outcome) :
    FailsOnly P (do return form (← outcome)) :=
  h.bind fun a _ => failsOnly_ok (form a)

/-- A field is refused only for a value that its check does not admit. -/
theorem failsOnly_read {reader : Reader α} (check : Check)
    (hcheck : (name, check) ∈ level.checks) (hexpected : reader.expected = check.expected)
    (hmeaning : ∀ value, fields.get? name = some value → check.admits value →
      ∃ a, reader.meaning? value = some a) :
    FailsOnly (Blames level fields) (fields.read name reader) := by
  intro e h
  obtain ⟨value, hvalue, hnone, rfl⟩ := Fields.read_eq_error_iff.1 h
  rw [hexpected]
  refine Fault.blames (.value hcheck hvalue fun hadmits => ?_)
  obtain ⟨a, ha⟩ := hmeaning value hvalue hadmits
  rw [hnone] at ha
  cases ha

theorem failsOnly_read_integer (hcheck : (name, .integer) ∈ level.checks) :
    FailsOnly (Blames level fields) (fields.read name .integer) :=
  failsOnly_read .integer hcheck rfl fun _ _ => Value.exists_integer?_iff.2

theorem failsOnly_read_map (hcheck : (name, .map) ∈ level.checks) :
    FailsOnly (Blames level fields) (fields.read name .map) := by
  refine failsOnly_read .map hcheck rfl fun value _ hadmits => ?_
  obtain ⟨inner, rfl, -⟩ := hadmits.exists_eq
  exact ⟨inner, rfl⟩

/-- A choice among groups fails where the one group that is there does, or because there are
two. -/
theorem failsOnly_readSole {groups : List (FieldGroup α)}
    {otherwise : Fields → Except ReadError α} (hlevel : level ≠ .phrase)
    (hnames : groups.map FieldGroup.names = level.groups)
    (hgroups : ∀ group ∈ groups, FailsOnly (Blames level fields) (group.read fields))
    (hotherwise : FailsOnly (Blames level fields) (otherwise fields)) :
    FailsOnly (Blames level fields) (fields.readSole groups otherwise) := by
  rw [Fields.readSole]
  split
  · exact hotherwise
  · rename_i group hgroup
    have hmem : group ∈ groups.filter fun group => fields.containsAny group.names :=
      hgroup ▸ List.mem_singleton_self group
    exact hgroups group (List.mem_filter.1 hmem).1
  · rename_i hnil hsingle
    have hpresent : (groups.filter fun group => fields.containsAny group.names).map
        FieldGroup.names = fields.present level.groups := by
      rw [← hnames, Fields.present, List.filter_map]
      rfl
    have htwo : 2 ≤ (groups.filter fun group => fields.containsAny group.names).length := by
      rcases h : groups.filter fun group => fields.containsAny group.names with
        _ | ⟨group, _ | ⟨other, rest⟩⟩
      · exact absurd h hnil
      · exact absurd h (hsingle group)
      · rw [h]
        exact Nat.le_add_left 2 rest.length
    rw [hpresent]
    rw [← List.length_map, hpresent] at htwo
    exact failsOnly_error (Fault.blames (.groups hlevel htwo))

end FailsOnly

/-! ### The parts of a level -/

/-- The units are read at a level of their own and at that of offsets. -/
theorem failsOnly_duration
    (hchecks : ∀ name ∈ ["days", "weeks", "months", "years"], (name, .integer) ∈ level.checks) :
    FailsOnly (Blames level fields) (Duration.ofFields fields) :=
  (failsOnly_read_integer (hchecks "days" (by simp))).bind fun _ _ =>
    (failsOnly_read_integer (hchecks "weeks" (by simp))).bind fun _ _ =>
      (failsOnly_read_integer (hchecks "months" (by simp))).bind fun _ _ =>
        (failsOnly_read_integer (hchecks "years" (by simp))).bind fun _ _ => failsOnly_ok _

/-- A shift is read at the level of phrases and at that of offsets. -/
theorem failsOnly_shift (hmap : ("duration", .map) ∈ level.checks)
    (hinside : ("duration", .units) ∈ level.inside)
    (hdirection : ("direction", .integer) ∈ level.checks) :
    FailsOnly (Blames level fields) (Shift.ofFields fields) := by
  refine (failsOnly_read_map hmap).bind fun units hunits => FailsOnly.bind ?_ fun _ _ =>
    (failsOnly_read_integer hdirection).bind fun _ _ => failsOnly_ok _
  cases units with
  | none => exact failsOnly_ok _
  | some inner =>
    have hinner := Fields.read_map_eq_ok_some_iff.1 hunits
    have hduration : FailsOnly (Blames .units inner) (Duration.ofFields inner) :=
      failsOnly_duration (by simp [Level.checks])
    exact (hduration.mono fun _ => Blames.inside hinside rfl hinner).map

theorem failsOnly_offset (fields : Fields) :
    FailsOnly (Blames .offset fields) (Offset.ofFields fields) := by
  have hnamed : FailsOnly (Blames .offset fields) (Offset.readNamed fields) :=
    (failsOnly_duration (by simp [Level.checks])).map
  have hcounted : FailsOnly (Blames .offset fields) (Offset.readCounted fields) :=
    (failsOnly_shift (by simp [Level.checks]) (by simp [Level.inside])
      (by simp [Level.checks])).map
  have htype : FailsOnly (Blames .offset fields) (fields.read "type" .unit) :=
    failsOnly_read .unit (by simp [Level.checks]) rfl
      fun _ _ => Value.exists_unit?_iff.2
  have hadjacent : FailsOnly (Blames .offset fields) (Offset.readAdjacent fields) :=
    htype.bind fun _ _ =>
      (failsOnly_read_integer (by simp [Level.checks])).bind fun _ _ => failsOnly_ok _
  refine failsOnly_readSole (by simp) rfl ?_ hnamed
  simp only [Offset.groups, List.forall_mem_cons, List.not_mem_nil, false_implies, implies_true,
    and_true]
  exact ⟨hcounted, hadjacent, hnamed⟩

theorem failsOnly_weekday (fields : Fields) :
    FailsOnly (Blames .absolute fields) (WeekdayPhrase.ofFields fields) := by
  have hweekday : FailsOnly (Blames .absolute fields) (fields.read "weekday" .weekday) :=
    failsOnly_read .weekday (by simp [Level.checks]) rfl
      fun _ _ => Value.exists_weekday?_iff.2
  exact hweekday.bind fun _ _ =>
    (failsOnly_read_integer (by simp [Level.checks])).bind fun _ _ => failsOnly_ok _

/-- Of a year in its century only the field that is read can be at fault. -/
theorem failsOnly_century (fields : Fields) :
    FailsOnly (Blames .century fields) (Year.ofFields fields) := by
  rw [Year.ofFields]
  split
  · exact failsOnly_ok _
  · rename_i name century hfound
    have hmem : (name, century) ∈ Year.centuries := List.mem_of_find?_eq_some hfound
    have hcheck : (name, Check.yearSince century) ∈ Level.century.checks :=
      List.mem_map_of_mem (f := fun entry => (entry.1, Check.yearSince entry.2)) hmem
    exact failsOnly_read (.yearSince century) hcheck rfl fun _ _ =>
      Value.exists_yearSince?_iff.2

theorem failsOnly_year (fields : Fields) :
    FailsOnly (Blames .absolute fields) (CalendarPhrase.readYear fields) := by
  rw [CalendarPhrase.readYear]
  split
  · rename_i inner hinner
    exact (failsOnly_century inner).mono fun _ =>
      Blames.inside (by simp [Level.inside]) rfl hinner
  · rename_i hsingle
    refine failsOnly_read .year (by simp [Level.checks]) rfl fun value hvalue h => ?_
    have hmap : ∀ inner, value ≠ .map inner := by
      rintro inner rfl
      exact hsingle inner hvalue
    refine (Value.exists_year?_iff hmap).2 (h.resolve_right fun hinner => ?_)
    obtain ⟨inner, hinner, -⟩ := hinner.exists_eq
    exact hmap inner hinner

theorem failsOnly_calendar (fields : Fields) :
    FailsOnly (Blames .absolute fields) (CalendarPhrase.ofFields fields) := by
  have hmonth : FailsOnly (Blames .absolute fields) (fields.read "month" .month) :=
    failsOnly_read .month (by simp [Level.checks]) rfl
      fun _ _ => Value.exists_month?_iff.2
  have hday : FailsOnly (Blames .absolute fields) (fields.read "day" .day) :=
    failsOnly_read .day (by simp [Level.checks]) rfl
      fun _ _ => Value.exists_day?_iff.2
  exact hmonth.bind fun _ _ => hday.bind fun _ _ =>
    (failsOnly_year fields).bind fun _ _ => failsOnly_ok _

theorem failsOnly_readAbsolute (fields : Fields) :
    FailsOnly (Blames .absolute fields) (Phrase.readAbsolute fields) := by
  have hcalendar : FailsOnly (Blames .absolute fields) (Phrase.readCalendar fields) :=
    (failsOnly_calendar fields).map
  refine failsOnly_readSole (by simp) rfl ?_ hcalendar
  simp only [Phrase.absoluteGroups, List.forall_mem_cons, List.not_mem_nil, false_implies,
    implies_true, and_true]
  exact ⟨(failsOnly_weekday fields).map, hcalendar⟩

/-! ### Levels of phrases -/

section Levels

variable {P : ReadError → Prop} {nested : Fields → Except ReadError Phrase}

/-- A shift is blamed before what it starts from. -/
theorem failsOnly_readShifted (hblames : ∀ e, Blames .phrase fields e → P e)
    (hnested : ∀ inner, fields.get? "date" = some (.map inner) → FailsOnly P (nested inner)) :
    FailsOnly P (Phrase.readShifted nested fields) := by
  have hshift : FailsOnly (Blames .phrase fields) (Shift.ofFields fields) :=
    failsOnly_shift (by simp [Level.checks]) (by simp [Level.inside]) (by simp [Level.checks])
  refine (hshift.mono hblames).bind fun shift _ => ?_
  split
  · rename_i inner hinner
    exact (hnested inner hinner).map
  · rename_i hpoint
    have hdate : FailsOnly (Blames .phrase fields) (fields.read "date" .point) := by
      refine failsOnly_read .start (by simp [Level.checks]) rfl fun value hvalue h => ?_
      refine Value.exists_point?_iff.2 (h.resolve_right fun hinner => ?_)
      obtain ⟨inner, rfl, -⟩ := hinner.exists_eq
      exact hpoint inner hvalue
    exact (hdate.mono hblames).map

/-- A map that may be absent is found exactly where the field is present. -/
theorem isSome_get?_of_read_map {found : Option Fields} (h : fields.read name .map = .ok found) :
    (fields.get? name).isSome = found.isSome := by
  cases found with
  | none => exact congrArg Option.isSome (Fields.read_eq_ok_none_iff.1 h)
  | some inner => exact congrArg Option.isSome (Fields.read_map_eq_ok_some_iff.1 h)

/-- **One level** fails for a fault of its own, or as the level inside it does. -/
theorem failsOnly_readLevel (hblames : ∀ e, Blames .phrase fields e → P e)
    (hnested : ∀ inner, fields.get? "date" = some (.map inner) → FailsOnly P (nested inner)) :
    FailsOnly P (Phrase.readLevel nested fields) := by
  have hread : ∀ name, (name, .map) ∈ Level.phrase.checks →
      FailsOnly P (fields.read name .map) :=
    fun name hcheck => (failsOnly_read_map hcheck).mono hblames
  rw [Phrase.readLevel]
  cases hempty : fields.isEmpty with
  | true => exact failsOnly_ok _
  | false =>
    simp only [Bool.false_eq_true, if_false]
    refine (hread "relative" (by simp [Level.checks])).bind fun relative hrelative =>
      (hread "absolute" (by simp [Level.checks])).bind fun absolute habsolute => ?_
    have hlength : (fields.present Level.phrase.groups).length =
        relative.isSome.toNat + absolute.isSome.toNat +
          (fields.containsAny Phrase.shiftNames).toNat := by
      rw [← isSome_get?_of_read_map hrelative, ← isSome_get?_of_read_map habsolute]
      exact Fields.length_present_forms
    -- which forms are there decides which of them is read, or why none is
    cases hshifted : fields.containsAny Phrase.shiftNames <;> rw [hshifted] at hlength <;>
      cases relative <;> cases absolute
    case false.none.none =>
      have hnone := List.length_eq_zero_iff.1 hlength
      exact failsOnly_error (hblames _ (Fault.unknown hempty hnone).blames)
    case false.none.some inner =>
      have hinner := Fields.read_map_eq_ok_some_iff.1 habsolute
      exact (failsOnly_readAbsolute inner).mono fun e h =>
        hblames e (h.inside (by simp [Level.inside]) rfl hinner)
    case false.some.none inner =>
      have hinner := Fields.read_map_eq_ok_some_iff.1 hrelative
      exact (failsOnly_offset inner).map.mono fun e h =>
        hblames e (h.inside (by simp [Level.inside]) rfl hinner)
    case true.none.none => exact failsOnly_readShifted hblames hnested
    all_goals
      refine failsOnly_error (hblames _ (Fault.forms ?_).blames)
      simp [hlength]

/-- The error describes a fault inside at most so many nested phrases, or there are more of them
and the limit is to blame. -/
def Explained (limit levels : Nat) (fields : Fields) (e : ReadError) : Prop :=
  (∃ depth ≤ levels, ∃ level found, Reaches .phrase fields depth level found ∧
    Fault level found e) ∨
  e = .tooDeep limit ∧ ∃ found, Reaches .phrase fields (levels + 1) .phrase found

theorem Blames.explained {limit levels : Nat} (h : Blames .phrase fields e) :
    Explained limit levels fields e := by
  obtain ⟨last, found, hreaches, hfault⟩ := h
  exact .inl ⟨0, Nat.zero_le levels, last, found, hreaches, hfault⟩

/-- What explains an error of a nested phrase explains it one level further out. -/
theorem explained_of_nested {limit levels : Nat} {inner : Fields}
    (hinner : fields.get? "date" = some (.map inner)) (h : Explained limit levels inner e) :
    Explained limit (levels + 1) fields e := by
  have hdate : ("date", Level.phrase) ∈ Level.phrase.inside := by simp [Level.inside]
  rcases h with ⟨depth, hdepth, level, found, hreaches, hfault⟩ | ⟨rfl, found, hreaches⟩
  · exact .inl ⟨depth + 1, Nat.succ_le_succ hdepth, level, found,
      .inside hdate hinner hreaches, hfault⟩
  · exact .inr ⟨rfl, found, .inside hdate hinner hreaches⟩

theorem failsOnly_readWithin (limit levels : Nat) (fields : Fields) :
    FailsOnly (Explained limit levels fields) (Phrase.readWithin limit levels fields) := by
  -- by induction on the levels that are left, for all fields
  induction levels generalizing fields with
  | zero =>
    refine failsOnly_readLevel (fun _ => Blames.explained) fun inner hinner => ?_
    have hdate : ("date", Level.phrase) ∈ Level.phrase.inside := by simp [Level.inside]
    exact failsOnly_error (.inr ⟨rfl, inner, .inside hdate hinner .here⟩)
  | succ levels ih =>
    exact failsOnly_readLevel (fun _ => Blames.explained) fun inner hinner =>
      (ih inner).mono fun _ => explained_of_nested hinner

end Levels

/-- **Every error is truthful.**  It describes a fault of one of the maps that reading comes to
within the limit.  The one error besides is that of the limit itself, and then one more phrase is
nested than it allows. -/
theorem exists_fault_of_ofFields {limit : Nat} (h : Phrase.ofFields fields limit = .error e) :
    (∃ depth ≤ limit, ∃ level found, Reaches .phrase fields depth level found ∧
      Fault level found e) ∨
    e = .tooDeep limit ∧ ∃ found, Reaches .phrase fields (limit + 1) .phrase found :=
  failsOnly_readWithin limit limit fields e h

/-- Three days, in digits, after a misspelt month. -/
def afterMisspeltMonth : Fields :=
  .ofList [
    ("duration", .map (.singleton "days" (.text "3"))),
    ("direction", .integer 1),
    ("date", .map (.singleton "absolute" (.map (.ofList [
      ("month", .text "Smarch"), ("day", .integer 1)]))))]

theorem exists_fault_of_ofFields_misspeltMonth :
    Phrase.ofFields afterMisspeltMonth 1 = .error (.invalidField "month" .month .text) ∧
    ∃ depth ≤ 1, ∃ level found, Reaches .phrase afterMisspeltMonth depth level found ∧
      Fault level found (.invalidField "month" .month .text) := by
  have herror :
      Phrase.ofFields afterMisspeltMonth 1 = .error (.invalidField "month" .month .text) := rfl
  -- the error is not the one of the limit
  exact ⟨herror, (exists_fault_of_ofFields herror).resolve_right fun h => nomatch h.1⟩

end SpokenDate
