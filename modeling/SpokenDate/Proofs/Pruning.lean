/-
Candidates while they are being typed.

A phrase that is still being typed lacks some fields of the phrase it is going to be.  If a
candidate is kept, then whatever fields it still lacked a moment before, it was kept then.
So nothing that is rejected, or refused with an error, can be completed to something that
is kept.

* **`Fits`**: the grammar of fields, level by level;
* **`readLevel_without`**: what one level is read as without some of its fields;
* **`keep_without`**: the same for the verdict on whole candidates.

Design notes: fields that a level does not know are ignored where other fields are there
and refused where they are not, and of two fields of a year phrase the second one is not
read.  This is why the grammar is needed.  The day is bounded because day 366 of January
2013 lies in January again, which it does not in the leap year by which a phrase without a
year is judged.
-/
import SpokenDate.Proofs.Level
import SpokenDate.Proofs.Plausibility
import SpokenDate.Proofs.Removal
import SpokenDate.Resolution

namespace SpokenDate

/-- What a level asks of its fields besides their names. -/
def Level.Admits : Level → Fields → Prop
  | century, fields => fields.names.length ≤ 1
  | absolute, fields =>
    ∀ value day, fields.get? "day" = some value → value.day? = some day → day.toNat ≤ 31
  | _, _ => True

/-- The fields fit the grammar of a level, and so do the maps among them. -/
inductive Fits : Level → Fields → Prop where
  | intro {level : Level} {fields : Fields} (names : ∀ name ∈ fields.names, name ∈ level.names)
      (admits : level.Admits fields)
      (inside : ∀ entry ∈ level.inside, ∀ inner, fields.get? entry.1 = some (.map inner) →
        Fits entry.2 inner) : Fits level fields

variable {fields : Fields} {options : Options} (removed : List String → Bool)

/-- Fields that lack everything their level knows are no fields at all. -/
theorem Fits.isEmpty_without {level : Level} (h : Fits level fields)
    (habsent : ∀ name ∈ level.names, (fields.without removed).get? name = none) :
    (fields.without removed).isEmpty = true := by
  obtain ⟨hnames, -, -⟩ := h
  refine Fields.isEmpty_iff.2 fun name => ?_
  cases hvalue : fields.get? name with
  | none => exact Fields.get?_without_eq_none removed hvalue
  | some value => exact habsent name (hnames name (Fields.mem_names_iff.2 ⟨value, hvalue⟩))

/-- A candidate that is read and kept. -/
def Kept (options : Options) (outcome : Except ReadError Phrase) : Prop :=
  ∃ phrase, outcome = .ok phrase ∧ phrase.keeps options = true

theorem keep_eq_ok_true_iff :
    keep fields options = .ok true ↔ Kept options (Phrase.ofFields fields options.maxDepth) := by
  rw [keep, bind_eq_ok_iff]
  constructor
  · rintro ⟨phrase, hphrase, h⟩
    cases hkeeps : phrase.keeps options <;> rw [hkeeps] at h
    · cases h
    · exact ⟨phrase, hphrase, hkeeps⟩
  · rintro ⟨phrase, hphrase, hkeeps⟩
    exact ⟨phrase, hphrase, by rw [hkeeps]; rfl⟩

namespace Phrase

theorem readOffset_without (h : Kept options (readOffset fields)) :
    Kept options (readOffset (fields.without removed)) := by
  obtain ⟨phrase, hread, hkeeps⟩ := h
  obtain ⟨offset, rfl, hoffset⟩ := readOffset_eq_ok_iff.1 hread
  obtain ⟨left, hleft, hpast⟩ := Offset.ofFields_without removed hoffset
  refine ⟨.offset left, readOffset_eq_ok_iff.2 ⟨left, rfl, hleft⟩, ?_⟩
  simp only [keeps, Bool.or_eq_true, Bool.not_eq_true'] at hkeeps ⊢
  refine hkeeps.imp id fun h => ?_
  cases hleft : left.pointsToPast with
  | false => rfl
  | true =>
    rw [hpast hleft] at h
    cases h

theorem readAbsolute_without (hfits : Fits .absolute fields)
    (h : Kept options (readAbsolute fields)) :
    Kept options (readAbsolute (fields.without removed)) := by
  obtain ⟨phrase, hread, hkeeps⟩ := h
  obtain ⟨-, hdays, hinside⟩ := hfits
  rcases readAbsolute_eq_ok_iff.1 hread with
    ⟨w, rfl, -, hcalendar, hw⟩ | ⟨c, rfl, hweekday, hc⟩
  · have hcalendar := Fields.containsAny_without removed hcalendar
    cases hweekday : (fields.without removed).containsAny ["weekday", "distance"] with
    | true =>
      obtain ⟨left, hleft⟩ := WeekdayPhrase.ofFields_without removed hw
      exact ⟨.weekday left, readAbsolute_eq_ok_iff.2 (.inl ⟨left, rfl, hweekday, hcalendar, hleft⟩),
        rfl⟩
    | false =>
      -- nothing is left of the weekday, and what is left is a calendar date without parts
      have habsent := Fields.containsAny_eq_false_iff.1 hcalendar
      have hmonth := habsent "month" (by simp)
      have hday := habsent "day" (by simp)
      have hyear := habsent "year" (by simp)
      refine ⟨.calendar ⟨none, none, none⟩, readAbsolute_eq_ok_iff.2 (.inr ⟨_, rfl, hweekday, ?_⟩),
        rfl⟩
      refine CalendarPhrase.ofFields_eq_ok_iff.2 ⟨Fields.read_eq_ok_none_iff.2 hmonth,
        Fields.read_eq_ok_none_iff.2 hday, ?_⟩
      rw [CalendarPhrase.readYear, hyear]
      exact Fields.read_eq_ok_none_iff.2 hyear
  · have hsingle : ∀ inner, fields.get? "year" = some (.map inner) → inner.names.length ≤ 1 := by
      intro inner hinner
      obtain ⟨-, hadmits, -⟩ := hinside ("year", .century) (by simp [Level.inside]) inner hinner
      exact hadmits
    obtain ⟨left, hleft, hmonths, hdays', hyears⟩ :=
      CalendarPhrase.ofFields_without removed hsingle hc
    refine ⟨.calendar left, readAbsolute_eq_ok_iff.2
      (.inr ⟨left, rfl, Fields.containsAny_without removed hweekday, hleft⟩), ?_⟩
    refine CalendarPhrase.isPlausible_of_remains ?_ hmonths hdays' hyears hkeeps
    intro day hday
    obtain ⟨-, hread, -⟩ := CalendarPhrase.ofFields_eq_ok_iff.1 hc
    rw [hday] at hread
    obtain ⟨value, hvalue, hmeaning⟩ := Fields.read_eq_ok_some_iff.1 hread
    exact hdays value day hvalue hmeaning

variable {nested : Fields → Except ReadError Phrase}

theorem readShifted_without
    (hnested : ∀ inner, fields.get? "date" = some (.map inner) → Kept options (nested inner) →
      ∀ removed, Kept options (nested (inner.without removed)))
    (h : Kept options (readShifted nested fields)) :
    Kept options (readShifted nested (fields.without removed)) := by
  obtain ⟨phrase, hread, hkeeps⟩ := h
  rcases readShifted_eq_ok_iff.1 hread with
    ⟨shift, base, inner, rfl, hshift, hinner, hbase⟩ | ⟨shift, point, rfl, hshift, hpoint⟩
  · -- without its date the shift starts from no point, and only the chain is judged
    rw [keeps_fromPhrase, Bool.and_eq_true] at hkeeps
    obtain ⟨left, hleft, -⟩ := Shift.ofFields_without removed hshift
    rcases Fields.get?_without_map removed hinner with hnone | hmap
    · exact ⟨.fromPoint left none, readShifted_eq_ok_iff.2
        (.inr ⟨left, none, rfl, hleft, Fields.read_eq_ok_none_iff.2 hnone⟩), hkeeps.1⟩
    · obtain ⟨base, hbase, hkeep⟩ := hnested inner hinner ⟨base, hbase, hkeeps.2⟩ _
      refine ⟨.fromPhrase left base, readShifted_eq_ok_iff.2
        (.inl ⟨left, base, _, rfl, hleft, hmap, hbase⟩), ?_⟩
      rw [keeps_fromPhrase, Bool.and_eq_true]
      exact ⟨hkeeps.1, hkeep⟩
  · obtain ⟨left, hleft, -⟩ := Shift.ofFields_without removed hshift
    obtain ⟨point, hpoint, -⟩ := Fields.read_without removed (fun _ => rfl) hpoint
    exact ⟨.fromPoint left point, readShifted_eq_ok_iff.2 (.inr ⟨left, point, rfl, hleft, hpoint⟩),
      hkeeps⟩

/-- **One level** is still kept without some of its fields, if that holds of the level inside
it. -/
theorem readLevel_without (hfits : Fits .phrase fields)
    (hnested : ∀ inner, fields.get? "date" = some (.map inner) → Kept options (nested inner) →
      ∀ removed, Kept options (nested (inner.without removed)))
    (h : Kept options (readLevel nested fields)) :
    Kept options (readLevel nested (fields.without removed)) := by
  -- where nothing is left of the form that was there, nothing is left at all
  have hgone : (fields.without removed).get? "relative" = none →
      (fields.without removed).get? "absolute" = none →
      (fields.without removed).containsAny shiftNames = false →
      Kept options (readLevel nested (fields.without removed)) := by
    intro hrelative habsolute hshifted
    rw [Fields.containsAny_eq_false_iff] at hshifted
    have hempty := hfits.isEmpty_without removed (by
      simp only [Level.names, List.forall_mem_cons]
      exact ⟨hrelative, habsolute, hshifted _ (by simp [shiftNames]),
        hshifted _ (by simp [shiftNames]), hshifted _ (by simp [shiftNames]), by simp⟩)
    exact ⟨.empty, readLevel_eq_ok_iff.2 (.inl ⟨hempty, rfl⟩), rfl⟩
  obtain ⟨phrase, hread, hkeeps⟩ := h
  rcases readLevel_eq_ok_iff.1 hread with ⟨hempty, rfl⟩ |
    ⟨inner, hrelative, habsolute, hshifted, hread⟩ |
    ⟨inner, hrelative, habsolute, hshifted, hread⟩ | ⟨hrelative, habsolute, -, hread⟩
  · have habsent := Fields.isEmpty_iff.1 hempty
    refine ⟨.empty, readLevel_eq_ok_iff.2 (.inl ⟨?_, rfl⟩), rfl⟩
    exact Fields.isEmpty_iff.2 fun name => Fields.get?_without_eq_none removed (habsent name)
  · have habsolute := Fields.get?_without_eq_none removed habsolute
    have hshifted := Fields.containsAny_without removed hshifted
    rcases Fields.get?_without_map removed hrelative with hnone | hmap
    · exact hgone hnone habsolute hshifted
    · obtain ⟨left, hleft, hkept⟩ := readOffset_without _ ⟨phrase, hread, hkeeps⟩
      exact ⟨left, readLevel_eq_ok_iff.2
        (.inr (.inl ⟨_, hmap, habsolute, hshifted, hleft⟩)), hkept⟩
  · have hrelative := Fields.get?_without_eq_none removed hrelative
    have hshifted := Fields.containsAny_without removed hshifted
    obtain ⟨-, -, hinside⟩ := id hfits
    have hfits := hinside ("absolute", .absolute) (by simp [Level.inside]) inner habsolute
    rcases Fields.get?_without_map removed habsolute with hnone | hmap
    · exact hgone hrelative hnone hshifted
    · obtain ⟨left, hleft, hkept⟩ := readAbsolute_without _ hfits ⟨phrase, hread, hkeeps⟩
      exact ⟨left, readLevel_eq_ok_iff.2
        (.inr (.inr (.inl ⟨_, hrelative, hmap, hshifted, hleft⟩))), hkept⟩
  · have hrelative := Fields.get?_without_eq_none removed hrelative
    have habsolute := Fields.get?_without_eq_none removed habsolute
    cases hshifted : (fields.without removed).containsAny shiftNames with
    | false => exact hgone hrelative habsolute hshifted
    | true =>
      obtain ⟨left, hleft, hkept⟩ := readShifted_without removed hnested ⟨phrase, hread, hkeeps⟩
      exact ⟨left, readLevel_eq_ok_iff.2
        (.inr (.inr (.inr ⟨hrelative, habsolute, hshifted, hleft⟩))), hkept⟩

/-- However deep the phrases inside it go, a phrase is still kept without some of its fields. -/
theorem readWithin_without (limit : Nat) {levels : Nat} {fields : Fields}
    (hfits : Fits .phrase fields) (h : Kept options (readWithin limit levels fields)) :
    Kept options (readWithin limit levels (fields.without removed)) := by
  -- by induction on the levels that are left, for all fields and all that can be missing
  induction levels generalizing fields removed with
  | zero =>
    rw [readWithin_zero] at h ⊢
    refine readLevel_without removed hfits ?_ h
    rintro inner - ⟨base, hbase, -⟩
    cases hbase
  | succ levels ih =>
    rw [readWithin_succ] at h ⊢
    obtain ⟨-, -, hinside⟩ := id hfits
    refine readLevel_without removed hfits ?_ h
    intro inner hinner hkept removed
    exact ih removed (hinside ("date", .phrase) (by simp [Level.inside]) inner hinner) hkept

end Phrase

/-- **Pruning is sound.**  A candidate that fits the grammar and is kept was kept with any of
its fields still missing, at any depth. -/
theorem keep_without (hfits : Fits .phrase fields) (hkeep : keep fields options = .ok true) :
    keep (fields.without removed) options = .ok true := by
  rw [keep_eq_ok_true_iff] at hkeep ⊢
  exact Phrase.readWithin_without removed options.maxDepth hfits hkeep

/-- A week before 29 February 2012, the year given by its century. -/
def beforeLeapDay : Fields :=
  .ofList [("duration", .map (.singleton "weeks" (.integer 1))), ("direction", .integer (-1)),
    ("date", .map (.singleton "absolute" (.map (.ofList [("month", .text "february"),
      ("day", .text "29th"), ("year", .map (.singleton "year20" (.text "12")))]))))]

theorem fits_beforeLeapDay : Fits .phrase beforeLeapDay := by
  have hunits : Fits .units (.singleton "weeks" (.integer 1)) :=
    .intro (by decide) trivial (List.forall_mem_nil _)
  have hcentury : Fits .century (.singleton "year20" (.text "12")) :=
    .intro (by decide) (Nat.le_refl 1) (List.forall_mem_nil _)
  have habsolute : Fits .absolute (.ofList [("month", .text "february"),
      ("day", .text "29th"), ("year", .map (.singleton "year20" (.text "12")))]) := by
    refine .intro (by decide) ?_ ?_
    · intro value day hvalue hday
      cases hvalue
      have h : (Value.text "29th").day? = some 29 := by decide +kernel
      rw [h] at hday
      cases hday
      decide
    · simp only [Level.inside, List.forall_mem_cons, List.not_mem_nil, false_implies, implies_true,
        and_true]
      intro inner hinner
      cases hinner
      exact hcentury
  have hdate : Fits .phrase (.singleton "absolute" (.map (.ofList [("month", .text "february"),
      ("day", .text "29th"), ("year", .map (.singleton "year20" (.text "12")))]))) := by
    refine .intro (by decide) trivial ?_
    simp only [Level.inside, List.forall_mem_cons, List.not_mem_nil, false_implies, implies_true,
      and_true]
    refine ⟨?_, ?_, ?_, ?_⟩ <;> intro inner hinner <;> cases hinner
    exact habsolute
  refine .intro (by decide) trivial ?_
  simp only [Level.inside, List.forall_mem_cons, List.not_mem_nil, false_implies, implies_true,
    and_true]
  refine ⟨?_, ?_, ?_, ?_⟩ <;> intro inner hinner <;> cases hinner
  · exact hunits
  · exact hdate

theorem keep_without_century :
    Fits .phrase beforeLeapDay ∧ keep beforeLeapDay {} = .ok true ∧
      keep (beforeLeapDay.without fun path => path = ["date", "absolute", "year", "year20"]) {} =
        .ok true := by
  have hkeep : keep beforeLeapDay {} = .ok true := by
    have hverdict : (keep beforeLeapDay {}).toOption = some true := by decide +kernel
    cases h : keep beforeLeapDay {} with
    | error e =>
      rw [h] at hverdict
      cases hverdict
    | ok verdict =>
      rw [h] at hverdict
      cases hverdict
      rfl
  exact ⟨fits_beforeLeapDay, hkeep, keep_without _ fits_beforeLeapDay hkeep⟩

end SpokenDate
