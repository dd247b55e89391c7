/-
Fields that are read alike.

Maps of fields can differ without being told apart.  It is enough that each level finds the
same names of its vocabulary in both, that its readers make the same of the values there, and
that the maps among these are alike again.  What else the maps hold is never looked at, except
where nothing of the vocabulary is there, for then the names are what is reported.

* **`Alike`**: maps that agree on the vocabulary of each level, where agreeing on single values
  is up to a relation;
* **`Alike.insert_unknown`**, **`Alike.insert_single`**, **`Alike.insert_map`**: what setting a
  field keeps alike;
* **`Unseen`**: a relation on values that no reader sees;
* **`agrees_readLevel`**, **`agrees_readWithin`**: maps that are alike up to such a relation are
  read alike, level by level and as a whole;
* **`ofFields_eq_of_alike`**: fields outside the vocabulary have no effect.

Design notes: some relations are seen where a value is refused, by the kind that an error
reports.  So all statements come in a strict form, about errors too, and in one that only asks
for what is accepted to stay so.
-/
import SpokenDate.Proofs.Acceptance
import SpokenDate.Proofs.Level
import SpokenDate.Proofs.Nesting
import SpokenDate.Resolution

namespace SpokenDate

variable {α β : Type} {strict : Prop}

/-! ### Outcomes -/

/-- The second outcome is the first one.  Unless this is strict, it need only be where the first
one is not a refusal. -/
def Agrees (strict : Prop) (first second : Except ReadError α) : Prop :=
  (strict ∨ ∃ a, first = .ok a) → second = first

theorem Agrees.refl (outcome : Except ReadError α) : Agrees strict outcome outcome := fun _ => rfl

theorem Agrees.bind {first second : Except ReadError α} {next next' : α → Except ReadError β}
    (h : Agrees strict first second) (hnext : ∀ a, Agrees strict (next a) (next' a)) :
    Agrees strict (first >>= next) (second >>= next') := by
  intro hasked
  have hsame : second = first := by
    refine h (hasked.imp id ?_)
    rintro ⟨b, hb⟩
    obtain ⟨a, ha, -⟩ := bind_eq_ok_iff.1 hb
    exact ⟨a, ha⟩
  rw [hsame]
  cases first with
  | error e => rfl
  | ok a => exact hnext a hasked

/-! ### Likeness of fields -/

/-- What two maps hold under the same name: nothing, a map each, or single values that are
`same`. -/
inductive HeldAlike (same : Value → Value → Prop) : Option Value → Option Value → Prop where
  | absent : HeldAlike same none none
  | maps (inner other : Fields) : HeldAlike same (some (.map inner)) (some (.map other))
  | single {v w : Value} (hv : v.map? = none) (hw : w.map? = none) (h : same v w) :
    HeldAlike same (some v) (some w)

theorem HeldAlike.refl {same : Value → Value → Prop} (hsame : ∀ v, same v v) (held : Option Value) :
    HeldAlike same held held := by
  cases held with
  | none => exact .absent
  | some value =>
    cases value with
    | map inner => exact .maps inner inner
    | _ => exact .single rfl rfl (hsame _)

theorem HeldAlike.isSome_eq {same : Value → Value → Prop} {first second : Option Value}
    (h : HeldAlike same first second) : second.isSome = first.isSome := by
  cases h <;> rfl

/-- Two maps agree on the vocabulary of their level and of the levels inside it, where single
values under a name of a level need only be `same`.  Two maps of a whole phrase that hold
nothing of the vocabulary have the same names. -/
inductive Alike (same : Level → String → Value → Value → Prop) :
    Level → Fields → Fields → Prop where
  | intro {level : Level} {fields others : Fields}
      (known : ∀ name ∈ level.names,
        HeldAlike (same level name) (fields.get? name) (others.get? name))
      (inside : ∀ entry ∈ level.inside, ∀ inner other, fields.get? entry.1 = some (.map inner) →
        others.get? entry.1 = some (.map other) → Alike same entry.2 inner other)
      (told : level = .phrase →
        (∃ name ∈ level.names, fields.contains name = true) ∨ others.names = fields.names) :
      Alike same level fields others

/-- The reader makes the same of both values. -/
def Reader.Blind (strict : Prop) (reader : Reader α) (v w : Value) : Prop :=
  (strict ∨ ∃ a, reader.meaning? v = some a) → reader.meaning? w = reader.meaning? v

theorem Reader.Blind.of_eq {reader : Reader α} {v w : Value} (h : v = w) :
    reader.Blind strict v w := by
  rw [h]
  exact fun _ => rfl

/-- No reader sees which of two values that are `same` is there. -/
structure Unseen (strict : Prop) (same : Level → String → Value → Value → Prop) : Prop where
  kind : strict → ∀ {level name v w}, same level name v w → w.kind = v.kind
  integer : ∀ {level name v w}, same level name v w → Reader.integer.Blind strict v w
  unit : ∀ {v w}, same .offset "type" v w → Reader.unit.Blind strict v w
  weekday : ∀ {v w}, same .absolute "weekday" v w → Reader.weekday.Blind strict v w
  month : ∀ {v w}, same .absolute "month" v w → Reader.month.Blind strict v w
  day : ∀ {v w}, same .absolute "day" v w → Reader.day.Blind strict v w
  year : ∀ {v w}, same .absolute "year" v w → Reader.year.Blind strict v w
  yearSince : ∀ century {name v w}, same .century name v w →
    (Reader.yearSince century).Blind strict v w
  point : ∀ {v w}, same .phrase "date" v w → Reader.point.Blind strict v w

variable {same : Level → String → Value → Value → Prop} {level deeper : Level}
  {fields others : Fields} {name : String}

namespace Fields

theorem isEmpty_of_contains (h : fields.contains name = true) : fields.isEmpty = false := by
  cases fields with
  | nil => cases h
  | cons _ _ _ => rfl

theorem isEmpty_eq_names (fields : Fields) : fields.isEmpty = fields.names.isEmpty := by
  cases fields <;> rfl

end Fields

namespace Alike

theorem held (h : Alike same level fields others) (hname : name ∈ level.names) :
    HeldAlike (same level name) (fields.get? name) (others.get? name) := by
  obtain ⟨hknown, -, -⟩ := h
  exact hknown name hname

theorem contains_eq (h : Alike same level fields others) (hname : name ∈ level.names) :
    others.contains name = fields.contains name :=
  (h.held hname).isSome_eq

theorem containsAny_eq (h : Alike same level fields others) {names : List String}
    (hnames : ∀ name ∈ names, name ∈ level.names) :
    others.containsAny names = fields.containsAny names := by
  rw [Bool.eq_iff_iff]
  simp only [Fields.containsAny, List.any_eq_true]
  refine exists_congr fun name => and_congr_right fun hname => ?_
  rw [h.contains_eq (hnames name hname)]

/-- Where a phrase holds nothing of the vocabulary, both maps have the same names. -/
theorem names_eq (h : Alike same .phrase fields others)
    (hrelative : fields.get? "relative" = none) (habsolute : fields.get? "absolute" = none)
    (hshift : fields.containsAny Phrase.shiftNames = false) : others.names = fields.names := by
  have habsent : ∀ name ∈ Level.phrase.names, fields.get? name = none :=
    List.forall_mem_cons.2 ⟨hrelative,
      List.forall_mem_cons.2 ⟨habsolute, Fields.containsAny_eq_false_iff.1 hshift⟩⟩
  obtain ⟨-, -, htold⟩ := h
  refine (htold rfl).resolve_left ?_
  rintro ⟨name, hname, hcontains⟩
  rw [Fields.contains, habsent name hname] at hcontains
  cases hcontains

theorem isEmpty_eq (h : Alike same .phrase fields others) : others.isEmpty = fields.isEmpty := by
  have hcontains : ∀ name ∈ Level.phrase.names, others.contains name = fields.contains name :=
    fun _ hname => h.contains_eq hname
  obtain ⟨-, -, htold⟩ := h
  rcases htold rfl with ⟨name, hname, hfields⟩ | hnames
  · have hothers := (hcontains name hname).trans hfields
    rw [Fields.isEmpty_of_contains hfields, Fields.isEmpty_of_contains hothers]
  · rw [Fields.isEmpty_eq_names, Fields.isEmpty_eq_names, hnames]

/-- Both maps hold maps under a name, which are alike, or neither does. -/
theorem map_or_single (h : Alike same level fields others)
    (hinside : (name, deeper) ∈ level.inside) :
    (∃ inner other, fields.get? name = some (.map inner) ∧
      others.get? name = some (.map other) ∧ Alike same deeper inner other) ∨
    ((∀ inner, fields.get? name ≠ some (.map inner)) ∧
      ∀ other, others.get? name ≠ some (.map other)) := by
  obtain ⟨hknown, hmaps, -⟩ := h
  have hheld := hknown name (level.mem_names_of_inside hinside)
  have hmaps := hmaps _ hinside
  generalize fields.get? name = first at hheld hmaps
  generalize others.get? name = second at hheld hmaps
  cases hheld with
  | absent => exact .inr ⟨fun _ => nofun, fun _ => nofun⟩
  | maps inner other => exact .inl ⟨inner, other, rfl, rfl, hmaps inner other rfl rfl⟩
  | single hv hw _ =>
    refine .inr ⟨?_, ?_⟩
    · rintro inner ⟨⟩
      cases hv
    · rintro other ⟨⟩
      cases hw

/-- Fields are like themselves. -/
theorem refl (hsame : ∀ level name v, same level name v v) (level : Level) (fields : Fields) :
    Alike same level fields fields := by
  -- by recursion on the size of the fields, since a map inside them is smaller
  refine .intro (fun name _ => .refl (hsame level name) _) ?_ fun _ => .inr rfl
  intro entry _ inner other hinner hother
  obtain rfl : inner = other := Value.map.inj (Option.some.inj (hinner.symm.trans hother))
  exact refl hsame entry.2 inner
termination_by sizeOf fields
decreasing_by exact Fields.sizeOf_lt_of_get?_map hinner

/-- **Setting a field that is not known** keeps fields alike, if a phrase holds something of
the vocabulary. -/
theorem insert_unknown (h : Alike same level fields others) (hname : name ∉ level.names)
    (htold : level = .phrase → ∃ name ∈ level.names, fields.contains name = true)
    (value : Value) : Alike same level fields (others.insert name value) := by
  have hother : ∀ known ∈ level.names, (others.insert name value).get? known = others.get? known :=
    fun known hknown => Fields.get?_insert_of_ne _ _ (ne_of_mem_of_not_mem hknown hname)
  obtain ⟨hknown, hinside, -⟩ := h
  refine .intro ?_ ?_ fun hlevel => .inl (htold hlevel)
  · intro known hmem
    rw [hother known hmem]
    exact hknown known hmem
  · intro entry hentry inner other hinner
    rw [hother entry.1 (level.mem_names_of_inside hentry)]
    exact hinside entry hentry inner other hinner

/-- **Setting a known field** to what is like its value keeps fields alike. -/
theorem insert_known (h : Alike same level fields others) {value : Value}
    (hname : name ∈ level.names)
    (hvalue : HeldAlike (same level name) (fields.get? name) (some value))
    (hmaps : ∀ deeper, (name, deeper) ∈ level.inside → ∀ inner other,
      fields.get? name = some (.map inner) → value = .map other → Alike same deeper inner other) :
    Alike same level fields (others.insert name value) := by
  obtain ⟨hknown, hinside, -⟩ := h
  refine .intro ?_ ?_ fun _ => .inl ⟨name, hname, hvalue.isSome_eq.symm⟩
  · intro known hmem
    by_cases hsame : known = name
    · rw [hsame, Fields.get?_insert_self]
      exact hvalue
    · rw [Fields.get?_insert_of_ne _ _ hsame]
      exact hknown known hmem
  · rintro ⟨known, deeper⟩ hentry inner other hinner hother
    by_cases hsame : known = name
    · subst hsame
      rw [Fields.get?_insert_self] at hother
      exact hmaps deeper hentry inner other hinner (Option.some.inj hother)
    · rw [Fields.get?_insert_of_ne _ _ hsame] at hother
      exact hinside (known, deeper) hentry inner other hinner hother

/-- **Setting a known field to a single value** that cannot be told from the one it held keeps
fields alike. -/
theorem insert_single (h : Alike same level fields others) {v w : Value}
    (hname : name ∈ level.names) (hheld : fields.get? name = some v) (hv : v.map? = none)
    (hw : w.map? = none) (hsame : same level name v w) :
    Alike same level fields (others.insert name w) := by
  refine h.insert_known hname ?_ ?_
  · rw [hheld]
    exact .single hv hw hsame
  · rintro deeper _ inner other _ rfl
    cases hw

/-- **Setting a known field to a map** that is like the one it held keeps fields alike. -/
theorem insert_map (h : Alike same level fields others) {inner other : Fields}
    (hinside : (name, deeper) ∈ level.inside) (hinner : fields.get? name = some (.map inner))
    (hlike : Alike same deeper inner other) :
    Alike same level fields (others.insert name (.map other)) := by
  refine h.insert_known (level.mem_names_of_inside hinside) ?_ ?_
  · rw [hinner]
    exact .maps inner other
  · intro deeper' hinside' inner' other' hinner' hother'
    obtain rfl := level.eq_of_inside hinside hinside'
    rw [hinner] at hinner'
    cases hinner'
    cases hother'
    exact hlike

/-- **A single field** is read alike. -/
theorem agrees_read (hunseen : Unseen strict same) (h : Alike same level fields others)
    (hname : name ∈ level.names) {reader : Reader α}
    (hleaf : ∀ inner, reader.meaning? (.map inner) = none)
    (hblind : ∀ {v w}, same level name v w → reader.Blind strict v w) :
    Agrees strict (fields.read name reader) (others.read name reader) := by
  have hheld := h.held hname
  rw [Fields.read, Fields.read]
  generalize fields.get? name = first at hheld
  generalize others.get? name = second at hheld
  cases hheld with
  | absent => exact .refl _
  | maps inner other =>
    simp only [hleaf]
    exact .refl _
  | @single v w _ _ hsame =>
    intro hasked
    cases hmeaning : reader.meaning? v with
    | some a =>
      have hother := hblind hsame (.inr ⟨a, hmeaning⟩)
      simp only [hmeaning, hother]
    | none =>
      -- both are refused, which is looked at where the kinds are the same
      simp only [hmeaning, reduceCtorEq, exists_false, or_false] at hasked
      have hother := hblind hsame (.inl hasked)
      simp only [hmeaning, hother, hunseen.kind hasked hsame]

/-- **A field that holds a map** is read alike, where what follows is done alike with maps that
are alike. -/
theorem agrees_read_map (hunseen : Unseen strict same) (h : Alike same level fields others)
    (hinside : (name, deeper) ∈ level.inside) {next next' : Option Fields → Except ReadError β}
    (hnone : fields.get? name = none → Agrees strict (next none) (next' none))
    (hsome : ∀ inner other, Alike same deeper inner other →
      Agrees strict (next (some inner)) (next' (some other))) :
    Agrees strict (fields.read name .map >>= next) (others.read name .map >>= next') := by
  obtain ⟨hknown, hmaps, -⟩ := h
  have hheld := hknown name (level.mem_names_of_inside hinside)
  have hmaps := hmaps _ hinside
  rw [Fields.read, Fields.read]
  generalize fields.get? name = first at hheld hmaps hnone
  generalize others.get? name = second at hheld hmaps
  cases hheld with
  | absent => exact hnone rfl
  | maps inner other => exact hsome inner other (hmaps inner other rfl rfl)
  | @single v w hv hw hsame =>
    intro hasked
    simp only [Reader.map, hv, hw] at hasked ⊢
    -- a single value is refused here
    have hstrict : strict := by
      rcases hasked with hstrict | ⟨b, hb⟩
      · exact hstrict
      · cases hb
    rw [hunseen.kind hstrict hsame]
    rfl

theorem agrees_read_integer (hunseen : Unseen strict same) (h : Alike same level fields others)
    (hname : name ∈ level.names) :
    Agrees strict (fields.read name .integer) (others.read name .integer) :=
  h.agrees_read hunseen hname (fun _ => rfl) hunseen.integer

end Alike

/-- **A choice among groups** is made alike. -/
theorem agrees_readSole {groups : List (FieldGroup α)} {otherwise : Fields → Except ReadError α}
    (hpresent : ∀ group ∈ groups, others.containsAny group.names = fields.containsAny group.names)
    (hgroups : ∀ group ∈ groups, Agrees strict (group.read fields) (group.read others))
    (hotherwise : Agrees strict (otherwise fields) (otherwise others)) :
    Agrees strict (fields.readSole groups otherwise) (others.readSole groups otherwise) := by
  rw [Fields.readSole, Fields.readSole, List.filter_congr hpresent]
  have hmem : ∀ group ∈ groups.filter (fun group => fields.containsAny group.names),
      group ∈ groups := fun group hgroup => (List.mem_filter.1 hgroup).1
  generalize groups.filter (fun group => fields.containsAny group.names) = present at hmem
  cases present with
  | nil => exact hotherwise
  | cons group rest =>
    cases rest with
    | nil => exact hgroups group (hmem group List.mem_cons_self)
    | cons _ _ => exact .refl _

/-! ### The parts of a level -/

theorem CalendarPhrase.readYear_of_single
    (h : ∀ inner, fields.get? "year" ≠ some (.map inner)) :
    CalendarPhrase.readYear fields = fields.read "year" .year := by
  rw [readYear]
  split
  · rename_i inner hinner
    exact absurd hinner (h inner)
  · rfl

section

variable (hunseen : Unseen strict same)

include hunseen

theorem agrees_duration (h : Alike same level fields others)
    (hnames : ∀ name ∈ ["days", "weeks", "months", "years"], name ∈ level.names) :
    Agrees strict (Duration.ofFields fields) (Duration.ofFields others) := by
  have hread : ∀ name ∈ ["days", "weeks", "months", "years"],
      Agrees strict (fields.read name .integer) (others.read name .integer) :=
    fun name hname => h.agrees_read_integer hunseen (hnames name hname)
  simp only [List.forall_mem_cons, List.not_mem_nil, false_implies, implies_true, and_true] at hread
  obtain ⟨hdays, hweeks, hmonths, hyears⟩ := hread
  exact hdays.bind fun _ => hweeks.bind fun _ => hmonths.bind fun _ => hyears.bind fun _ => .refl _

theorem agrees_shift (h : Alike same level fields others)
    (hduration : ("duration", Level.units) ∈ level.inside)
    (hdirection : "direction" ∈ level.names) :
    Agrees strict (Shift.ofFields fields) (Shift.ofFields others) := by
  have hread := h.agrees_read_integer hunseen hdirection
  refine h.agrees_read_map hunseen hduration ?_ ?_
  · intro _
    exact hread.bind fun _ => .refl _
  · intro inner other hinner
    have hunits := agrees_duration hunseen hinner fun _ => id
    exact Agrees.bind (hunits.bind fun _ => .refl _) fun _ => hread.bind fun _ => .refl _

theorem agrees_offset (h : Alike same .offset fields others) :
    Agrees strict (Offset.ofFields fields) (Offset.ofFields others) := by
  have hnamed : Agrees strict (Offset.readNamed fields) (Offset.readNamed others) :=
    (agrees_duration hunseen h (by simp [Level.names])).bind fun _ => .refl _
  refine agrees_readSole ?_ ?_ hnamed
  · intro group hgroup
    refine h.containsAny_eq ?_
    revert group
    simp [Offset.groups, Level.names]
  · simp only [Offset.groups, List.forall_mem_cons, List.not_mem_nil, false_implies, implies_true,
      and_true]
    refine ⟨?_, ?_, hnamed⟩
    · exact (agrees_shift hunseen h (by simp [Level.inside]) (by simp [Level.names])).bind
        fun _ => .refl _
    · exact (h.agrees_read hunseen (by simp [Level.names]) (fun _ => rfl) hunseen.unit).bind
        fun _ => (h.agrees_read_integer hunseen (by simp [Level.names])).bind fun _ => .refl _

theorem agrees_weekday (h : Alike same .absolute fields others) :
    Agrees strict (WeekdayPhrase.ofFields fields) (WeekdayPhrase.ofFields others) :=
  (h.agrees_read hunseen (by simp [Level.names]) (fun _ => rfl) hunseen.weekday).bind
    fun _ => (h.agrees_read_integer hunseen (by simp [Level.names])).bind fun _ => .refl _

theorem agrees_century (h : Alike same .century fields others) :
    Agrees strict (Year.ofFields fields) (Year.ofFields others) := by
  have hread : ∀ name ∈ Level.century.names, ∀ century,
      Agrees strict (fields.read name (.yearSince century))
        (others.read name (.yearSince century)) :=
    fun name hname century =>
      h.agrees_read hunseen hname (fun _ => rfl) (hunseen.yearSince century)
  have hcontains : ∀ name ∈ Level.century.names, others.contains name = fields.contains name :=
    fun _ hname => h.contains_eq hname
  simp only [Level.names, List.forall_mem_cons, List.not_mem_nil, false_implies, implies_true,
    and_true] at hread hcontains
  obtain ⟨hcontains20, hcontains19, hcontains⟩ := hcontains
  simp only [Year.ofFields, Year.centuries, List.find?_cons, List.find?_nil, hcontains20,
    hcontains19, hcontains]
  cases fields.contains "year20" with
  | true => exact hread.1 2000
  | false =>
    cases fields.contains "year19" with
    | true => exact hread.2.1 1900
    | false =>
      cases fields.contains "year" with
      | true => exact hread.2.2 0
      | false => exact .refl _

theorem agrees_year (h : Alike same .absolute fields others) :
    Agrees strict (CalendarPhrase.readYear fields) (CalendarPhrase.readYear others) := by
  have hread : Agrees strict (fields.read "year" .year) (others.read "year" .year) :=
    h.agrees_read hunseen (by simp [Level.names]) (fun _ => rfl) hunseen.year
  have hinside : ("year", Level.century) ∈ Level.absolute.inside := by simp [Level.inside]
  rcases h.map_or_single hinside with
    ⟨inner, other, hinner, hother, hcentury⟩ | ⟨hsingle, hsingle'⟩
  · rw [CalendarPhrase.readYear, CalendarPhrase.readYear, hinner, hother]
    exact agrees_century hunseen hcentury
  · rw [CalendarPhrase.readYear_of_single hsingle, CalendarPhrase.readYear_of_single hsingle']
    exact hread

theorem agrees_calendar (h : Alike same .absolute fields others) :
    Agrees strict (CalendarPhrase.ofFields fields) (CalendarPhrase.ofFields others) :=
  (h.agrees_read hunseen (by simp [Level.names]) (fun _ => rfl) hunseen.month).bind fun _ =>
    (h.agrees_read hunseen (by simp [Level.names]) (fun _ => rfl) hunseen.day).bind fun _ =>
      (agrees_year hunseen h).bind fun _ => .refl _

theorem agrees_readAbsolute (h : Alike same .absolute fields others) :
    Agrees strict (Phrase.readAbsolute fields) (Phrase.readAbsolute others) := by
  have hcalendar : Agrees strict (Phrase.readCalendar fields) (Phrase.readCalendar others) :=
    (agrees_calendar hunseen h).bind fun _ => .refl _
  refine agrees_readSole ?_ ?_ hcalendar
  · intro group hgroup
    refine h.containsAny_eq ?_
    revert group
    simp [Phrase.absoluteGroups, Level.names]
  · simp only [Phrase.absoluteGroups, List.forall_mem_cons, List.not_mem_nil, false_implies,
      implies_true, and_true]
    exact ⟨(agrees_weekday hunseen h).bind fun _ => .refl _, hcalendar⟩

/-! ### Whole phrases -/

variable {nested : Fields → Except ReadError Phrase}
  (hnested : ∀ inner other, Alike same .phrase inner other →
    Agrees strict (nested inner) (nested other))

include hnested

theorem agrees_readShifted (h : Alike same .phrase fields others) :
    Agrees strict (Phrase.readShifted nested fields) (Phrase.readShifted nested others) := by
  have hshift : Agrees strict (Shift.ofFields fields) (Shift.ofFields others) :=
    agrees_shift hunseen h (by simp [Level.inside]) (by simp [Level.names])
  have hpoint : Agrees strict (fields.read "date" .point) (others.read "date" .point) :=
    h.agrees_read hunseen (by simp [Level.names]) (fun _ => rfl) hunseen.point
  have hinside : ("date", Level.phrase) ∈ Level.phrase.inside := by simp [Level.inside]
  refine hshift.bind fun shift => ?_
  rcases h.map_or_single hinside with
    ⟨inner, other, hinner, hother, hbase⟩ | ⟨hsingle, hsingle'⟩
  · rw [hinner, hother]
    exact (hnested inner other hbase).bind fun _ => .refl _
  · split
    · rename_i inner hinner
      exact absurd hinner (hsingle inner)
    · exact hpoint.bind fun _ => .refl _

/-- **One level** of phrases that are alike is read alike, where the levels inside it are. -/
theorem agrees_readLevel (h : Alike same .phrase fields others) :
    Agrees strict (Phrase.readLevel nested fields) (Phrase.readLevel nested others) := by
  have hshifted : others.containsAny Phrase.shiftNames = fields.containsAny Phrase.shiftNames :=
    h.containsAny_eq (by simp [Phrase.shiftNames, Level.names])
  have hinside : ("relative", Level.offset) ∈ Level.phrase.inside := by simp [Level.inside]
  have hinside' : ("absolute", Level.absolute) ∈ Level.phrase.inside := by simp [Level.inside]
  rw [Phrase.readLevel, Phrase.readLevel, h.isEmpty_eq]
  split
  · exact .refl _
  · refine h.agrees_read_map hunseen hinside ?_ ?_
    · intro hrelative
      refine h.agrees_read_map hunseen hinside' ?_ ?_
      · intro habsolute
        rw [hshifted]
        cases hshift : fields.containsAny Phrase.shiftNames with
        | true => exact agrees_readShifted hunseen hnested h
        | false =>
          -- nothing of the vocabulary is there, so the names are what is reported
          rw [h.names_eq hrelative habsolute hshift]
          exact .refl _
      · intro inner other habsolute
        rw [hshifted]
        cases fields.containsAny Phrase.shiftNames with
        | true => exact .refl _
        | false => exact agrees_readAbsolute hunseen habsolute
    · intro inner other hrelative
      refine h.agrees_read_map hunseen hinside' ?_ ?_
      · intro _
        rw [hshifted]
        cases fields.containsAny Phrase.shiftNames with
        | true => exact .refl _
        | false => exact (agrees_offset hunseen hrelative).bind fun _ => .refl _
      · intro _ _ _
        exact .refl _

omit hnested

/-- **All levels.**  Fields that are alike are read alike, however many levels are left. -/
theorem agrees_readWithin (limit levels : Nat) (h : Alike same .phrase fields others) :
    Agrees strict (Phrase.readWithin limit levels fields)
      (Phrase.readWithin limit levels others) := by
  induction levels generalizing fields others with
  | zero => exact agrees_readLevel hunseen (fun _ _ _ => .refl _) h
  | succ levels ih => exact agrees_readLevel hunseen (fun _ _ => ih) h

end

/-! ### Fields outside the vocabulary -/

/-- Values that are the same cannot be told apart. -/
theorem unseen_eq : Unseen True fun _ _ => Eq where
  kind := by
    rintro _ _ _ _ _ rfl
    rfl
  integer := .of_eq
  unit := .of_eq
  weekday := .of_eq
  month := .of_eq
  day := .of_eq
  year := .of_eq
  yearSince _ := .of_eq
  point := .of_eq

/-- **Fields outside the vocabulary have no effect.**  Where two maps hold the same under the
names that each level knows, they are read as the same phrase or refused with the same error,
under every limit.  So they resolve alike and are judged alike. -/
theorem ofFields_eq_of_alike (h : Alike (fun _ _ => Eq) .phrase fields others) :
    (∀ limit, Phrase.ofFields others limit = Phrase.ofFields fields limit) ∧
    (∀ today options, resolveWith others today options = resolveWith fields today options) ∧
    ∀ options, keep others options = keep fields options := by
  have hread : ∀ limit, Phrase.ofFields others limit = Phrase.ofFields fields limit :=
    fun limit => agrees_readWithin unseen_eq limit limit h (.inl trivial)
  refine ⟨hread, ?_, ?_⟩
  · intro today options
    rw [resolveWith, resolveWith, findDate, findDate, hread]
  · intro options
    rw [keep, keep, hread]

/-- The first of May. -/
def mayDay : Fields := .ofList [("month", .text "may"), ("day", .integer 1)]

/-- Two days after the first of May. -/
def afterMayDay : Fields :=
  .ofList [("duration", .map (.singleton "days" (.integer 2))), ("direction", .integer 1),
    ("date", .map (.singleton "absolute" (.map mayDay)))]

/-- The same with a field more at every level, some of which another level would know. -/
def afterMayDayAtNoon : Fields :=
  let duration := (Fields.singleton "days" (.integer 2)).insert "hours" (.integer 12)
  let date := ((Fields.singleton "absolute" (.map mayDay)).insert "absolute"
    (.map (mayDay.insert "weeks" (.text "18")))).insert "month" (.text "june")
  ((afterMayDay.insert "duration" (.map duration)).insert "date" (.map date)).insert "engine"
    (.map .nil)

theorem ofFields_afterMayDayAtNoon :
    Alike (fun _ _ => Eq) .phrase afterMayDay afterMayDayAtNoon ∧
    (∀ limit, Phrase.ofFields afterMayDayAtNoon limit = Phrase.ofFields afterMayDay limit) ∧
    (∀ today options,
      resolveWith afterMayDayAtNoon today options = resolveWith afterMayDay today options) ∧
    ∀ options, keep afterMayDayAtNoon options = keep afterMayDay options := by
  have hsame : ∀ level fields, Alike (fun _ _ => Eq) level fields fields :=
    Alike.refl fun _ _ _ => rfl
  have hduration : Alike (fun _ _ => Eq) .units (.singleton "days" (.integer 2)) _ :=
    (hsame _ _).insert_unknown (by decide : "hours" ∉ Level.units.names) nofun (.integer 12)
  have habsolute : Alike (fun _ _ => Eq) .absolute mayDay _ :=
    (hsame _ _).insert_unknown (by decide : "weeks" ∉ Level.absolute.names) nofun (.text "18")
  have hinside : ("absolute", Level.absolute) ∈ Level.phrase.inside := by simp [Level.inside]
  have hdate : Alike (fun _ _ => Eq) .phrase (.singleton "absolute" (.map mayDay)) _ :=
    ((hsame _ _).insert_map hinside rfl habsolute).insert_unknown
      (by decide : "month" ∉ Level.phrase.names) (fun _ => ⟨"absolute", by decide, rfl⟩)
      (.text "june")
  have hall : Alike (fun _ _ => Eq) .phrase afterMayDay afterMayDayAtNoon := by
    refine (((hsame _ _).insert_map ?_ rfl hduration).insert_map ?_ rfl hdate).insert_unknown
      (by decide) (fun _ => ⟨"date", by decide, rfl⟩) (.map .nil)
    · simp [Level.inside]
    · simp [Level.inside]
  exact ⟨hall, ofFields_eq_of_alike hall⟩

end SpokenDate
