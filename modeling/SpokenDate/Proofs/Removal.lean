/-
Fields of which some have been taken out.

A field is named by the path of names that leads to it, and what is taken out is any set of
paths.  A field that is left keeps its value, except that fields may be missing inside it.
So a part of a phrase is read as before or is missing, and it can be read whenever it could
be before.

* **`get?_without`**: what is left under a name;
* **`read_without`**: reading a field that holds no other fields;
* **`ofFields_without`** of durations, shifts, offsets, year phrases and calendar phrases:
  what is left of the parts of a phrase.
-/
import SpokenDate.Proofs.Acceptance

namespace SpokenDate

mutual

/-- What is left of a value without the fields at the given paths inside it. -/
def Value.without (removed : List String → Bool) : Value → Value
  | .map fields => .map (fields.without removed)
  | value => value

/-- What is left of fields without those at the given paths. -/
def Fields.without (removed : List String → Bool) : Fields → Fields
  | .nil => .nil
  | .cons name value rest =>
    if removed [name] then rest.without removed
    else .cons name (value.without fun path => removed (name :: path)) (rest.without removed)

end

variable {α : Type} {fields : Fields} {name : String} (removed : List String → Bool)

/-- A reader that takes no map is not touched by what is missing inside one. -/
theorem Reader.meaning?_without {reader : Reader α}
    (hleaf : ∀ inner, reader.meaning? (.map inner) = none) {value : Value} {a : α}
    (h : reader.meaning? value = some a) : reader.meaning? (value.without removed) = some a := by
  cases value with
  | map inner =>
    rw [hleaf] at h
    cases h
  | _ =>
    rw [Value.without]
    · exact h
    · intro fields hfields
      cases hfields

namespace Fields

/-- **A name has no value any more, or the one it had without what is missing inside it.** -/
theorem get?_without (fields : Fields) (name : String) :
    (fields.without removed).get? name =
      if removed [name] then none
      else (fields.get? name).map (Value.without fun path => removed (name :: path)) := by
  match fields with
  | .nil => simp [without, get?]
  | .cons other value rest =>
    have ih := get?_without rest name
    rw [without, get?]
    by_cases hname : name = other
    · subst hname
      by_cases hremoved : removed [name] = true
      · -- an entry further on with the same name goes too
        simpa only [hremoved, if_true] using ih
      · simp only [hremoved, if_false, get?, if_true, Option.map_some, Bool.false_eq_true]
    · by_cases hremoved : removed [other] = true
      · rw [if_pos hremoved, if_neg hname]
        exact ih
      · rw [if_neg hremoved, if_neg hname, get?, if_neg hname]
        exact ih

theorem get?_without_eq_none (h : fields.get? name = none) :
    (fields.without removed).get? name = none := by
  rw [get?_without, h]
  split <;> rfl

/-- A map that is left lacks what is missing inside it. -/
theorem get?_without_map {inner : Fields} (h : fields.get? name = some (.map inner)) :
    (fields.without removed).get? name = none ∨
      (fields.without removed).get? name =
        some (.map (inner.without fun path => removed (name :: path))) := by
  rw [get?_without, h]
  split
  · exact .inl rfl
  · exact .inr (by rw [Option.map_some, Value.without])

theorem containsAny_without {names : List String} (h : fields.containsAny names = false) :
    (fields.without removed).containsAny names = false := by
  rw [containsAny_eq_false_iff] at h ⊢
  intro name hname
  exact get?_without_eq_none removed (h name hname)

/-- **A field that is read without looking for fields inside it** is read as before, or is
missing. -/
theorem read_without {reader : Reader α} {found : Option α}
    (hleaf : ∀ inner, reader.meaning? (.map inner) = none)
    (h : fields.read name reader = .ok found) :
    ∃ left, (fields.without removed).read name reader = .ok left ∧
      (left = none ∨ left = found) := by
  cases found with
  | none =>
    have hnone := read_eq_ok_none_iff.1 h
    exact ⟨none, read_eq_ok_none_iff.2 (get?_without_eq_none removed hnone), .inl rfl⟩
  | some a =>
    obtain ⟨value, hvalue, hmeaning⟩ := read_eq_ok_some_iff.1 h
    by_cases hremoved : removed [name] = true
    · refine ⟨none, read_eq_ok_none_iff.2 ?_, .inl rfl⟩
      rw [get?_without, if_pos hremoved]
    · have hleft := get?_without removed fields name
      rw [if_neg hremoved, hvalue, Option.map_some] at hleft
      exact ⟨some a, read_eq_ok_some_iff.2 ⟨_, hleft, Reader.meaning?_without _ hleaf hmeaning⟩,
        .inr rfl⟩

end Fields

/-! ### Durations, shifts and offsets -/

theorem Duration.ofFields_without {duration : Duration}
    (h : Duration.ofFields fields = .ok duration) :
    ∃ left, Duration.ofFields (fields.without removed) = .ok left ∧
      ∀ n, some n ∈ left.counts → some n ∈ duration.counts := by
  obtain ⟨hdays, hweeks, hmonths, hyears⟩ := Duration.ofFields_eq_ok_iff.1 h
  obtain ⟨days, hdays, hday⟩ := Fields.read_without removed (fun _ => rfl) hdays
  obtain ⟨weeks, hweeks, hweek⟩ := Fields.read_without removed (fun _ => rfl) hweeks
  obtain ⟨months, hmonths, hmonth⟩ := Fields.read_without removed (fun _ => rfl) hmonths
  obtain ⟨years, hyears, hyear⟩ := Fields.read_without removed (fun _ => rfl) hyears
  refine ⟨⟨days, weeks, months, years⟩,
    Duration.ofFields_eq_ok_iff.2 ⟨hdays, hweeks, hmonths, hyears⟩, ?_⟩
  intro n hn
  simp only [counts, List.mem_cons, List.not_mem_nil, or_false] at hn ⊢
  grind

theorem Duration.ofFields_of_absent
    (h : fields.containsAny ["days", "weeks", "months", "years"] = false) :
    Duration.ofFields fields = .ok .empty := by
  rw [Fields.containsAny_eq_false_iff] at h
  exact Duration.ofFields_eq_ok_iff.2 ⟨Fields.read_eq_ok_none_iff.2 (h _ (by simp)),
    Fields.read_eq_ok_none_iff.2 (h _ (by simp)), Fields.read_eq_ok_none_iff.2 (h _ (by simp)),
    Fields.read_eq_ok_none_iff.2 (h _ (by simp))⟩

theorem Shift.ofFields_without {shift : Shift} (h : Shift.ofFields fields = .ok shift) :
    ∃ left, Shift.ofFields (fields.without removed) = .ok left ∧
      (left.direction = none ∨ left.direction = shift.direction) := by
  obtain ⟨hduration, hdirection⟩ := Shift.ofFields_eq_ok_iff.1 h
  obtain ⟨direction, hdirection, hleft⟩ :=
    Fields.read_without removed (fun _ => rfl) hdirection
  -- with or without a duration, the direction is the one that is left
  suffices ∃ duration, Shift.ofFields (fields.without removed) = .ok ⟨duration, direction⟩ by
    obtain ⟨duration, hread⟩ := this
    exact ⟨_, hread, hleft⟩
  have habsent : (fields.without removed).get? "duration" = none →
      Shift.ofFields (fields.without removed) = .ok ⟨none, direction⟩ := fun hnone =>
    Shift.ofFields_eq_ok_iff.2 ⟨hnone, hdirection⟩
  cases hfound : shift.duration with
  | none =>
    rw [hfound] at hduration
    exact ⟨none, habsent (Fields.get?_without_eq_none removed hduration)⟩
  | some duration =>
    rw [hfound] at hduration
    obtain ⟨units, hunits, hread⟩ := hduration
    rcases Fields.get?_without_map removed hunits with hnone | hmap
    · exact ⟨none, habsent hnone⟩
    · obtain ⟨units, hunits, -⟩ := Duration.ofFields_without _ hread
      exact ⟨some units, Shift.ofFields_eq_ok_iff.2 ⟨⟨_, hmap, hunits⟩, hdirection⟩⟩

/-- What is left of an offset does not point to the past if the offset did not.  One of
which nothing is left is a named one that says nothing. -/
theorem Offset.ofFields_without {offset : Offset} (h : Offset.ofFields fields = .ok offset) :
    ∃ left, Offset.ofFields (fields.without removed) = .ok left ∧
      (left.pointsToPast = true → offset.pointsToPast = true) := by
  -- the case in which nothing is left of the form that was there
  have hgone : (fields.without removed).containsAny ["duration", "direction"] = false →
      (fields.without removed).containsAny ["num", "type"] = false →
      fields.containsAny ["days", "weeks", "months", "years"] = false →
      ∃ left, Offset.ofFields (fields.without removed) = .ok left ∧
        (left.pointsToPast = true → offset.pointsToPast = true) := by
    intro hcounted hadjacent hnamed
    refine ⟨.named .empty, Offset.ofFields_eq_ok_iff.2 ⟨hcounted, hadjacent, ?_⟩, ?_⟩
    · exact Duration.ofFields_of_absent (Fields.containsAny_without removed hnamed)
    · intro hpast
      cases hpast
  rw [Offset.ofFields_eq_ok_iff] at h
  cases offset with
  | named duration =>
    obtain ⟨hcounted, hadjacent, hread⟩ := h
    obtain ⟨left, hleft, hcounts⟩ := Duration.ofFields_without removed hread
    refine ⟨.named left, Offset.ofFields_eq_ok_iff.2 ⟨Fields.containsAny_without removed hcounted,
      Fields.containsAny_without removed hadjacent, hleft⟩, ?_⟩
    intro hpast
    obtain ⟨n, hn, hneg⟩ := Duration.pointsToPast_iff.1 hpast
    exact Duration.pointsToPast_iff.2 ⟨n, hcounts n hn, hneg⟩
  | counted shift =>
    obtain ⟨-, hadjacent, hnamed, hread⟩ := h
    have hadjacent := Fields.containsAny_without removed hadjacent
    cases hcounted : (fields.without removed).containsAny ["duration", "direction"] with
    | false => exact hgone hcounted hadjacent hnamed
    | true =>
      obtain ⟨left, hleft, hdirection⟩ := Shift.ofFields_without removed hread
      refine ⟨.counted left, Offset.ofFields_eq_ok_iff.2 ⟨hcounted, hadjacent,
        Fields.containsAny_without removed hnamed, hleft⟩, ?_⟩
      intro hpast
      -- a missing direction points nowhere
      rcases hdirection with hnone | hsame
      · rw [pointsToPast, hnone] at hpast
        cases hpast
      · rw [pointsToPast, hsame] at hpast
        exact hpast
  | adjacent unit step =>
    obtain ⟨hcounted, -, hnamed, hunit, hstep⟩ := h
    have hcounted := Fields.containsAny_without removed hcounted
    cases hadjacent : (fields.without removed).containsAny ["num", "type"] with
    | false => exact hgone hcounted hadjacent hnamed
    | true =>
      obtain ⟨unit, hunit, -⟩ := Fields.read_without removed (fun _ => rfl) hunit
      obtain ⟨step, hstep, -⟩ := Fields.read_without removed (fun _ => rfl) hstep
      refine ⟨.adjacent unit step, Offset.ofFields_eq_ok_iff.2 ⟨hcounted, hadjacent,
        Fields.containsAny_without removed hnamed, hunit, hstep⟩, ?_⟩
      intro hpast
      cases hpast

/-! ### Weekday and calendar phrases -/

theorem WeekdayPhrase.ofFields_without {phrase : WeekdayPhrase}
    (h : WeekdayPhrase.ofFields fields = .ok phrase) :
    ∃ left, WeekdayPhrase.ofFields (fields.without removed) = .ok left := by
  obtain ⟨hweekday, hdistance⟩ := WeekdayPhrase.ofFields_eq_ok_iff.1 h
  obtain ⟨weekday, hweekday, -⟩ := Fields.read_without removed (fun _ => rfl) hweekday
  obtain ⟨distance, hdistance, -⟩ := Fields.read_without removed (fun _ => rfl) hdistance
  exact ⟨⟨weekday, distance⟩, WeekdayPhrase.ofFields_eq_ok_iff.2 ⟨hweekday, hdistance⟩⟩

/-- The first century that is present may be one of several, and without it the next is read.
So this is about fields that name one. -/
theorem Year.ofFields_without {year : Option Year} (hsingle : fields.names.length ≤ 1)
    (h : Year.ofFields fields = .ok year) :
    ∃ left, Year.ofFields (fields.without removed) = .ok left ∧
      (left = none ∨ left = year) := by
  match fields with
  | .nil => exact ⟨none, rfl, .inl rfl⟩
  | .cons _ _ (.cons _ _ _) => simp [Fields.names, Fields.toList] at hsingle
  | .cons name value .nil =>
    by_cases hremoved : removed [name] = true
    · refine ⟨none, ?_, .inl rfl⟩
      rw [Fields.without, if_pos hremoved]
      rfl
    · -- nothing is missing except perhaps inside the value
      have hcontains : ∀ other, ((Fields.cons name value .nil).without removed).contains other =
          (Fields.cons name value .nil).contains other := by
        intro other
        rw [Fields.without, if_neg hremoved, Fields.contains, Fields.contains, Fields.get?,
          Fields.get?]
        split <;> rfl
      rw [Year.ofFields] at h ⊢
      simp only [hcontains]
      split at h
      · rename_i hfind
        rw [hfind]
        exact ⟨none, rfl, .inl rfl⟩
      · rename_i hfind
        rw [hfind]
        exact Fields.read_without removed (fun _ => rfl) h

theorem CalendarPhrase.readYear_without {year : Option Year}
    (hsingle : ∀ inner, fields.get? "year" = some (.map inner) → inner.names.length ≤ 1)
    (h : CalendarPhrase.readYear fields = .ok year) :
    ∃ left, CalendarPhrase.readYear (fields.without removed) = .ok left ∧
      (left = none ∨ left = year) := by
  rw [readYear] at h
  split at h
  · rename_i inner hinner
    rcases Fields.get?_without_map removed hinner with hnone | hmap
    · refine ⟨none, ?_, .inl rfl⟩
      rw [readYear, hnone]
      exact Fields.read_eq_ok_none_iff.2 hnone
    · rw [readYear, hmap]
      exact Year.ofFields_without _ (hsingle inner hinner) h
  · obtain ⟨left, hleft, hremains⟩ := Fields.read_without removed (fun _ => rfl) h
    refine ⟨left, ?_, hremains⟩
    rw [readYear]
    split
    · -- a single value does not become a map
      rename_i inner hinner
      rw [Fields.read_eq_ok_iff, hinner] at hleft
      obtain ⟨hsome, rfl⟩ := hleft
      cases hsome
    · exact hleft

theorem CalendarPhrase.ofFields_without {phrase : CalendarPhrase}
    (hsingle : ∀ inner, fields.get? "year" = some (.map inner) → inner.names.length ≤ 1)
    (h : CalendarPhrase.ofFields fields = .ok phrase) :
    ∃ left, CalendarPhrase.ofFields (fields.without removed) = .ok left ∧
      (left.month = none ∨ left.month = phrase.month) ∧
      (left.day = none ∨ left.day = phrase.day) ∧
      (left.year = none ∨ left.year = phrase.year) := by
  obtain ⟨hmonth, hday, hyear⟩ := CalendarPhrase.ofFields_eq_ok_iff.1 h
  obtain ⟨month, hmonth, hmonths⟩ := Fields.read_without removed (fun _ => rfl) hmonth
  obtain ⟨day, hday, hdays⟩ := Fields.read_without removed (fun _ => rfl) hday
  obtain ⟨year, hyear, hyears⟩ := readYear_without removed hsingle hyear
  exact ⟨⟨month, day, year⟩, CalendarPhrase.ofFields_eq_ok_iff.2 ⟨hmonth, hday, hyear⟩, hmonths,
    hdays, hyears⟩

end SpokenDate
