/-
Nested phrases, and the limit on them.

Reading a level looks at a nested phrase at most once, after everything else at that level
and only to put a shift in front of it.  So what a limit does is to cut a chain off: above
the number of nested levels that reading comes to, the limit does not matter, and below it
nothing else does.

* **`readLevel_cases`**: what one level makes of the reader for the level inside it;
* **`ofFields_eq_ite`**: what a limit does, for all fields.
-/
import SpokenDate.Reading.Phrase

namespace SpokenDate

/-- The number of phrases inside a phrase, one in the other. -/
def Phrase.links : Phrase → Nat
  | .fromPhrase _ base => base.links + 1
  | _ => 0

variable {α β : Type} {fields : Fields}

/-- Reading that does not fail because of a limit. -/
def Unlimited (outcome : Except ReadError α) : Prop :=
  ∀ limit, outcome ≠ .error (.tooDeep limit)

theorem unlimited_ok (a : α) : Unlimited (.ok a) := by
  intro limit h
  cases h

theorem unlimited_bind {outcome : Except ReadError α} {next : α → Except ReadError β}
    (h : Unlimited outcome) (hnext : ∀ a, Unlimited (next a)) :
    Unlimited (outcome >>= next) := by
  cases outcome with
  | error e =>
    intro limit he
    cases he
    exact h limit rfl
  | ok a => exact hnext a

namespace Fields

theorem unlimited_read {name : String} (reader : Reader α) :
    Unlimited (fields.read name reader) := by
  intro limit h
  obtain ⟨value, -, -, h⟩ := read_eq_error_iff.1 h
  cases h

/-- What the readers of all groups make of the fields, the choice among them does too. -/
theorem readSole_induction {groups : List (FieldGroup α)}
    {otherwise : Fields → Except ReadError α} (P : Except ReadError α → Prop)
    (hgroups : ∀ group ∈ groups, P (group.read fields)) (hotherwise : P (otherwise fields))
    (hmixed : ∀ names, P (.error (.mixedGroups names))) :
    P (fields.readSole groups otherwise) := by
  rw [readSole]
  split
  · exact hotherwise
  · rename_i group hgroup
    have hmem : group ∈ groups.filter fun group => fields.containsAny group.names :=
      hgroup ▸ List.mem_singleton_self group
    exact hgroups group (List.mem_filter.1 hmem).1
  · exact hmixed _

theorem sizeOf_lt_of_get? : ∀ {fields : Fields} {name : String} {value : Value},
    fields.get? name = some value → sizeOf value < sizeOf fields
  | .cons other first rest, name, value, h => by
    rw [get?] at h
    split at h
    · cases h
      simp only [cons.sizeOf_spec]
      omega
    · have := sizeOf_lt_of_get? h
      simp only [cons.sizeOf_spec]
      omega

theorem sizeOf_lt_of_get?_map {name : String} {inner : Fields}
    (h : fields.get? name = some (.map inner)) : sizeOf inner < sizeOf fields := by
  have := sizeOf_lt_of_get? h
  simp only [Value.map.sizeOf_spec] at this
  omega

end Fields

/-! ### The parts of a level -/

theorem unlimited_duration (fields : Fields) : Unlimited (Duration.ofFields fields) :=
  unlimited_bind (Fields.unlimited_read _) fun _ =>
    unlimited_bind (Fields.unlimited_read _) fun _ =>
      unlimited_bind (Fields.unlimited_read _) fun _ =>
        unlimited_bind (Fields.unlimited_read _) fun _ => unlimited_ok _

theorem unlimited_shift (fields : Fields) : Unlimited (Shift.ofFields fields) := by
  refine unlimited_bind (Fields.unlimited_read _) fun units => unlimited_bind ?_ fun _ =>
    unlimited_bind (Fields.unlimited_read _) fun _ => unlimited_ok _
  cases units with
  | none => exact unlimited_ok _
  | some units => exact unlimited_bind (unlimited_duration units) fun _ => unlimited_ok _

theorem unlimited_offset (fields : Fields) : Unlimited (Offset.ofFields fields) := by
  have hnamed : Unlimited (Offset.readNamed fields) :=
    unlimited_bind (unlimited_duration fields) fun _ => unlimited_ok _
  refine Fields.readSole_induction Unlimited ?_ hnamed (by simp [Unlimited])
  simp only [Offset.groups, List.forall_mem_cons, List.not_mem_nil, false_implies, implies_true,
    and_true]
  refine ⟨unlimited_bind (unlimited_shift fields) fun _ => unlimited_ok _, ?_, hnamed⟩
  exact unlimited_bind (Fields.unlimited_read _) fun _ =>
    unlimited_bind (Fields.unlimited_read _) fun _ => unlimited_ok _

theorem unlimited_weekday (fields : Fields) : Unlimited (WeekdayPhrase.ofFields fields) :=
  unlimited_bind (Fields.unlimited_read _) fun _ =>
    unlimited_bind (Fields.unlimited_read _) fun _ => unlimited_ok _

theorem unlimited_year (fields : Fields) : Unlimited (CalendarPhrase.readYear fields) := by
  rw [CalendarPhrase.readYear]
  split
  · rename_i phrase _
    rw [Year.ofFields]
    split
    · exact unlimited_ok _
    · exact Fields.unlimited_read _
  · exact Fields.unlimited_read _

theorem unlimited_calendar (fields : Fields) : Unlimited (CalendarPhrase.ofFields fields) :=
  unlimited_bind (Fields.unlimited_read _) fun _ =>
    unlimited_bind (Fields.unlimited_read _) fun _ =>
      unlimited_bind (unlimited_year fields) fun _ => unlimited_ok _

/-! ### One level -/

/-- Reading that comes to no nested phrase. -/
def Flat (outcome : Except ReadError Phrase) : Prop :=
  Unlimited outcome ∧ ∀ phrase, outcome = .ok phrase → phrase.links = 0

theorem flat_map {outcome : Except ReadError α} {f : α → Phrase} (h : Unlimited outcome)
    (hlinks : ∀ a, (f a).links = 0) : Flat (do return f (← outcome)) := by
  refine ⟨unlimited_bind h fun _ => unlimited_ok _, ?_⟩
  intro phrase hphrase
  cases outcome with
  | error e => cases hphrase
  | ok a =>
    cases hphrase
    exact hlinks a

theorem flat_error {e : ReadError} (h : ∀ limit, e ≠ .tooDeep limit) : Flat (.error e) := by
  refine ⟨fun limit he => ?_, fun phrase he => ?_⟩
  · cases he
    exact h limit rfl
  · cases he

theorem flat_readAbsolute (fields : Fields) : Flat (Phrase.readAbsolute fields) := by
  have hcalendar : Flat (Phrase.readCalendar fields) :=
    flat_map (unlimited_calendar fields) fun _ => rfl
  refine Fields.readSole_induction Flat ?_ hcalendar fun _ => flat_error (by simp)
  simp only [Phrase.absoluteGroups, List.forall_mem_cons, List.not_mem_nil, false_implies,
    implies_true, and_true]
  exact ⟨flat_map (unlimited_weekday fields) fun _ => rfl, hcalendar⟩

/-- What a level is read as, for all readers of the level inside it: either they are not
asked, or they are asked once and only a shift is put in front of their answer. -/
inductive LevelReading (read : (Fields → Except ReadError Phrase) → Except ReadError Phrase)
    (fields : Fields) : Prop where
  | flat (outcome : Except ReadError Phrase) (h : Flat outcome)
      (reads : ∀ nested, read nested = outcome)
  | link (shift : Shift) (inner : Fields) (held : fields.get? "date" = some (.map inner))
      (reads : ∀ nested, read nested = (nested inner).map (Phrase.fromPhrase shift))

theorem readShifted_cases (fields : Fields) :
    LevelReading (Phrase.readShifted · fields) fields := by
  simp only [Phrase.readShifted]
  cases hshift : Shift.ofFields fields with
  | error e =>
    refine .flat (.error e) (flat_error fun limit he => ?_) fun nested => rfl
    exact unlimited_shift fields limit (hshift.trans (congrArg _ he))
  | ok shift =>
    -- only a map is left to the reader of the level inside
    by_cases hdate : ∃ inner, fields.get? "date" = some (.map inner)
    · obtain ⟨inner, hinner⟩ := hdate
      refine .link shift inner hinner fun nested => ?_
      simp only [bind, Except.bind, hinner]
      cases nested inner <;> rfl
    · refine .flat (do return .fromPoint shift (← fields.read "date" .point))
        (flat_map (Fields.unlimited_read .point) fun _ => rfl) fun nested => ?_
      simp only [bind, Except.bind]
      split
      · rename_i inner hinner
        exact absurd ⟨inner, hinner⟩ hdate
      · rfl

/-- **A level asks for the nested phrase last, and at most once.** -/
theorem readLevel_cases (fields : Fields) : LevelReading (Phrase.readLevel · fields) fields := by
  simp only [Phrase.readLevel]
  by_cases hempty : fields.isEmpty = true
  · simp only [hempty, if_true]
    exact .flat (.ok .empty) ⟨unlimited_ok _, fun _ h => by cases h; rfl⟩ fun _ => rfl
  · simp only [hempty]
    cases hrelative : fields.read "relative" .map with
    | error e =>
      refine .flat (.error e) (flat_error fun limit he => ?_) fun nested => rfl
      exact Fields.unlimited_read _ limit (hrelative.trans (congrArg _ he))
    | ok relative =>
      cases habsolute : fields.read "absolute" .map with
      | error e =>
        refine .flat (.error e) (flat_error fun limit he => ?_) fun nested => rfl
        exact Fields.unlimited_read _ limit (habsolute.trans (congrArg _ he))
      | ok absolute =>
        -- of the forms, only the shifted one reads further fields of this level
        cases hshifted : fields.containsAny Phrase.shiftNames <;> cases relative <;>
          cases absolute
        case true.none.none => exact readShifted_cases fields
        case false.none.none => exact .flat _ (flat_error (by simp)) fun _ => rfl
        case false.none.some inner => exact .flat _ (flat_readAbsolute inner) fun _ => rfl
        case false.some.none inner =>
          exact .flat _ (flat_map (unlimited_offset inner) fun _ => rfl) fun _ => rfl
        all_goals exact .flat _ (flat_error (by simp)) fun _ => rfl

/-! ### All levels -/

/-- Reading fields comes to a fixed number of nested phrases, and only that number decides
whether the levels that are left are too few. -/
theorem exists_cutoff (fields : Fields) :
    ∃ (depth : Nat) (outcome : Except ReadError Phrase), Unlimited outcome ∧
      (∀ phrase, outcome = .ok phrase → depth = phrase.links) ∧
      ∀ limit levels, Phrase.readWithin limit levels fields =
        if depth ≤ levels then outcome else .error (.tooDeep limit) := by
  -- by recursion on the size of the fields, since a map inside them is smaller
  cases readLevel_cases fields with
  | flat outcome h reads =>
    refine ⟨0, outcome, h.1, fun phrase hphrase => (h.2 phrase hphrase).symm, ?_⟩
    intro limit levels
    rw [if_pos (Nat.zero_le levels)]
    cases levels with
    | zero => exact reads _
    | succ levels => exact reads _
  | link shift inner held reads =>
    obtain ⟨depth, outcome, hunlimited, hlinks, hreads⟩ := exists_cutoff inner
    refine ⟨depth + 1, outcome.map (Phrase.fromPhrase shift), ?_, ?_, ?_⟩
    · exact unlimited_bind hunlimited fun _ => unlimited_ok _
    · intro phrase hphrase
      cases outcome with
      | error e => cases hphrase
      | ok base =>
        cases hphrase
        rw [hlinks base rfl]
        rfl
    · intro limit levels
      -- the link spends one level, and without one left the error is that of the limit
      cases levels with
      | zero => exact (reads _).trans (by rfl)
      | succ levels =>
        rw [Phrase.readWithin_succ]
        refine (reads _).trans ?_
        rw [hreads]
        by_cases h : depth ≤ levels
        · rw [if_pos h, if_pos (Nat.succ_le_succ h)]
        · rw [if_neg h, if_neg (fun hle => h (Nat.le_of_succ_le_succ hle))]
          rfl
termination_by sizeOf fields
decreasing_by exact Fields.sizeOf_lt_of_get?_map held

/-- **A limit only cuts off.**  Fields have a depth and an outcome of their own.  A limit that
the depth does not pass brings out the outcome, and any other brings out nothing but itself. -/
theorem ofFields_eq_ite (fields : Fields) :
    ∃ (depth : Nat) (outcome : Except ReadError Phrase),
      (∀ limit, outcome ≠ .error (.tooDeep limit)) ∧
      (∀ limit, Phrase.ofFields fields limit =
        if depth ≤ limit then outcome else .error (.tooDeep limit)) ∧
      ∀ phrase, outcome = .ok phrase → depth = phrase.links := by
  obtain ⟨depth, outcome, hunlimited, hlinks, hreads⟩ := exists_cutoff fields
  exact ⟨depth, outcome, hunlimited, fun limit => hreads limit limit, hlinks⟩

/-- A phrase after another, of which nothing more is said. -/
def after (base : Fields) : Fields := .ofList [("direction", .integer 1), ("date", .map base)]

/-- Two links around nothing are cut off by a limit of one, and a limit of two lets them through. -/
example :
    Phrase.ofFields (after (after .nil)) 1 = .error (.tooDeep 1) ∧
    Phrase.ofFields (after (after .nil)) 2 =
      .ok (.fromPhrase ⟨none, some 1⟩ (.fromPhrase ⟨none, some 1⟩ .empty)) :=
  ⟨rfl, rfl⟩

end SpokenDate
