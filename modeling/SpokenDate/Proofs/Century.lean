/-
Years given by their century.

The year of a calendar phrase may be a map of its own, in which one of three fields counts from the
start of a century.  That field has to hold a number.  Other fields say nothing here, as they do at
every level, so a map without any of the three leaves the year out, and not only the empty one.

* **`Fields.IsCentury`**: the maps that give a year, or leave it out;
* **`Year.ofFields_of_sole`**: where one of the three fields is there at most, it is the one that
  is read;
* **`exists_ofFields_iff_isCentury`**: phrases with such a year are accepted exactly so;
* **`ofFields_strayCenturies`**: what is accepted besides empty maps and single fields.

Design notes: of several centuries side by side the first is read and the others are not looked at.
Nothing is built on that here: all statements but the last ask for one of them at most.
-/
import SpokenDate.Proofs.Fault

namespace SpokenDate

variable {fields inner phrase : Fields}

/-- A number that a word of 32 bits can hold. -/
def Value.IsShort (value : Value) : Prop :=
  ∃ n, value.Counts n ∧ -0x80000000 ≤ n ∧ n < 0x80000000

namespace Fields

/-- The map holds one of the three fields at most. -/
def AtMostOneCentury (phrase : Fields) : Prop :=
  (Year.centuries.filter fun entry => phrase.contains entry.1).length ≤ 1

/-- The map holds none of the three fields, or one of them with a number. -/
def IsCentury (phrase : Fields) : Prop :=
  (∀ entry ∈ Year.centuries, phrase.get? entry.1 = none) ∨
    ∃ entry ∈ Year.centuries, ∃ value, phrase.get? entry.1 = some value ∧ value.IsShort

/-- Counted from the start of their century, the numbers do not outgrow a word of 32 bits. -/
def SumsFit (phrase : Fields) : Prop :=
  ∀ entry ∈ Year.centuries, ∀ value, phrase.get? entry.1 = some value →
    ∀ n, value.Counts n → n < 0x80000000 → entry.2 + n < 0x80000000

/-- No century is before year 0, so only sums can be too large. -/
theorem isYearSince_iff_isShort (hfit : phrase.SumsFit) {entry : String × Int}
    (hentry : entry ∈ Year.centuries) {value : Value} (hvalue : phrase.get? entry.1 = some value) :
    value.IsYearSince entry.2 ↔ value.IsShort := by
  have hstart : 0 ≤ entry.2 := by
    have hall : ∀ other ∈ Year.centuries, 0 ≤ other.2 := by decide
    exact hall entry hentry
  constructor
  · rintro ⟨n, hn, hshort, -⟩
    exact ⟨n, hn, hshort⟩
  · rintro ⟨n, hn, hlo, hhi⟩
    have hsum := hfit entry hentry value hvalue n hn hhi
    exact ⟨n, hn, ⟨hlo, hhi⟩, by omega, hsum⟩

end Fields

/-- **A year without a century is left out**, and one with a single century is that which is
read. -/
theorem Year.ofFields_of_sole (hsole : phrase.AtMostOneCentury) :
    ((∀ entry ∈ centuries, phrase.get? entry.1 = none) ∧ Year.ofFields phrase = .ok none) ∨
      ∃ entry ∈ centuries, phrase.contains entry.1 = true ∧
        (∀ other ∈ centuries, phrase.contains other.1 = true → other = entry) ∧
        Year.ofFields phrase = phrase.read entry.1 (.yearSince entry.2) := by
  have hmem : ∀ entry, entry ∈ centuries.filter (fun entry => phrase.contains entry.1) ↔
      entry ∈ centuries ∧ phrase.contains entry.1 = true := fun entry => List.mem_filter
  rw [Fields.AtMostOneCentury] at hsole
  rw [Year.ofFields, ← List.head?_filter]
  generalize centuries.filter (fun entry => phrase.contains entry.1) = found at hmem hsole ⊢
  rcases found with _ | ⟨entry, _ | ⟨other, rest⟩⟩
  · refine .inl ⟨fun entry hentry => ?_, rfl⟩
    refine Fields.contains_eq_false_iff.1 (Bool.eq_false_iff.2 fun hcontains => ?_)
    exact List.not_mem_nil ((hmem entry).2 ⟨hentry, hcontains⟩)
  · obtain ⟨hentry, hcontains⟩ := (hmem entry).1 List.mem_cons_self
    refine .inr ⟨entry, hentry, hcontains, fun other hother hothers => ?_, rfl⟩
    exact List.mem_singleton.1 ((hmem other).2 ⟨hother, hothers⟩)
  · simp at hsole

/-- **A map is read as a year** exactly where it is one by its century. -/
theorem Year.exists_ofFields_iff (hsole : phrase.AtMostOneCentury) (hfit : phrase.SumsFit) :
    (∃ year, Year.ofFields phrase = .ok year) ↔ phrase.IsCentury := by
  rcases Year.ofFields_of_sole hsole with
    ⟨habsent, hread⟩ | ⟨entry, hentry, hcontains, hunique, hread⟩
  · exact iff_of_true ⟨none, hread⟩ (.inl habsent)
  · obtain ⟨value, hvalue⟩ := Fields.contains_iff.1 hcontains
    have hyear : (∃ year, phrase.read entry.1 (.yearSince entry.2) = .ok year) ↔
        phrase.Holds entry.1 (Value.IsYearSince entry.2) :=
      Fields.exists_read_iff fun _ _ => Value.exists_yearSince?_iff
    rw [hread, hyear]
    constructor
    · intro hholds
      exact .inr ⟨entry, hentry, value, hvalue,
        (Fields.isYearSince_iff_isShort hfit hentry hvalue).1 (hholds value hvalue)⟩
    · rintro (habsent | ⟨other, hother, value', hvalue', hshort⟩)
      · rw [habsent entry hentry] at hvalue
        cases hvalue
      · obtain rfl := hunique other hother (Fields.contains_iff.2 ⟨value', hvalue'⟩)
        exact Fields.holds_of_get? hvalue'
          ((Fields.isYearSince_iff_isShort hfit hother hvalue').2 hshort)

namespace Phrase

/-- Where month and day are fine, it is the year that an absolute date stands or falls with. -/
theorem exists_readAbsolute_iff_year (hgroup : inner.containsAny ["weekday", "distance"] = false)
    (hmonth : inner.Holds "month" Value.IsMonth) (hday : inner.Holds "day" Value.IsDay)
    (hyear : inner.get? "year" = some (.map phrase)) :
    (∃ read, readAbsolute inner = .ok read) ↔ ∃ year, Year.ofFields phrase = .ok year := by
  rw [exists_readAbsolute_iff]
  constructor
  · intro h
    exact h.year _ hyear
  · intro h
    refine ⟨?_, Fields.holds_of_containsAny hgroup (by simp),
      Fields.holds_of_containsAny hgroup (by simp), hmonth, hday, Fields.holds_of_get? hyear h⟩
    -- one of the two groups is not there
    rw [Fields.present, List.filter_cons_of_neg (by simp [hgroup])]
    exact List.length_filter_le _ _

/-- An absolute date is accepted as a phrase where it is accepted by itself. -/
theorem exists_ofFields_iff_readAbsolute (hrelative : fields.get? "relative" = none)
    (habsolute : fields.get? "absolute" = some (.map inner))
    (hshifted : fields.containsAny shiftNames = false) (limit : Nat) :
    (∃ read, ofFields fields limit = .ok read) ↔ ∃ read, readAbsolute inner = .ok read := by
  have hempty : fields.isEmpty = false := by
    refine Bool.eq_false_iff.2 fun h => ?_
    rw [Fields.isEmpty_iff.1 h] at habsolute
    cases habsolute
  have hlevel : ∀ nested read, readLevel nested fields = .ok read ↔
      readAbsolute inner = .ok read := by
    intro nested read
    simp [readLevel_eq_ok_iff, hempty, hrelative, habsolute, hshifted]
  cases limit with
  | zero => simp only [ofFields, readWithin_zero, hlevel]
  | succ limit => simp only [ofFields, readWithin_succ, hlevel]

/-- **A calendar date with a year in its century is accepted** exactly where none of the three
fields of that year is there, or one with a number.  So it is for the absolute date by itself, and
for a phrase that consists of it. -/
theorem exists_ofFields_iff_isCentury
    (hgroup : inner.containsAny ["weekday", "distance"] = false)
    (hmonth : inner.Holds "month" Value.IsMonth) (hday : inner.Holds "day" Value.IsDay)
    (hyear : inner.get? "year" = some (.map phrase)) (hsole : phrase.AtMostOneCentury)
    (hfit : phrase.SumsFit) :
    ((∃ read, readAbsolute inner = .ok read) ↔ phrase.IsCentury) ∧
    ∀ (fields : Fields) (limit : Nat), fields.get? "relative" = none →
      fields.get? "absolute" = some (.map inner) → fields.containsAny shiftNames = false →
        ((∃ read, ofFields fields limit = .ok read) ↔ phrase.IsCentury) := by
  have hcentury : (∃ read, readAbsolute inner = .ok read) ↔ phrase.IsCentury := by
    rw [exists_readAbsolute_iff_year hgroup hmonth hday hyear, Year.exists_ofFields_iff hsole hfit]
  refine ⟨hcentury, fun fields limit hrelative habsolute hshifted => ?_⟩
  rw [exists_ofFields_iff_readAbsolute hrelative habsolute hshifted, hcentury]

/-- 4 July of a year that is given by fields of its own. -/
def julyFourth (year : Fields) : Fields :=
  .ofList [("month", .text "July"), ("day", .text "4th"), ("year", .map year)]

/-- The year 2012, and a field that says nothing about it. -/
def spoken2012 : Fields := .ofList [("year20", .text "12"), ("spoken", .flag true)]

theorem exists_ofFields_julyFourth2012 :
    (julyFourth spoken2012).containsAny ["weekday", "distance"] = false ∧
    (julyFourth spoken2012).Holds "month" Value.IsMonth ∧
    (julyFourth spoken2012).Holds "day" Value.IsDay ∧
    (julyFourth spoken2012).get? "year" = some (.map spoken2012) ∧
    spoken2012.AtMostOneCentury ∧ spoken2012.SumsFit ∧
    ((∃ read, readAbsolute (julyFourth spoken2012) = .ok read) ↔ spoken2012.IsCentury) ∧
    spoken2012.IsCentury := by
  have hmonth : (julyFourth spoken2012).Holds "month" Value.IsMonth :=
    Fields.holds_of_get? rfl (Value.exists_month?_iff.1 ⟨7, rfl⟩)
  have hday : (julyFourth spoken2012).Holds "day" Value.IsDay :=
    Fields.holds_of_get? rfl (Value.exists_day?_iff.1 ⟨4, by decide⟩)
  have hsole : spoken2012.AtMostOneCentury := Nat.le_refl 1
  have hfit : spoken2012.SumsFit := by
    intro entry hentry value hvalue n hn hhi
    simp only [Year.centuries, List.mem_cons, List.not_mem_nil, or_false] at hentry
    rcases hentry with rfl | rfl | rfl
    · cases hvalue
      have hspelt : Decimal.integer? "12".toList = some n := Decimal.integer?_eq_some_iff.2 hn
      cases hspelt
      decide
    · cases hvalue
    · cases hvalue
  have hread : readAbsolute (julyFourth spoken2012) =
      .ok (.calendar ⟨some 7, some 4, some (.full 2012)⟩) := rfl
  have hiff := (exists_ofFields_iff_isCentury rfl hmonth hday rfl hsole hfit).1
  exact ⟨rfl, hmonth, hday, rfl, hsole, hfit, hiff, hiff.1 ⟨_, hread⟩⟩

/-- A year in a century that has no field. -/
def year18 : Fields := .singleton "year18" (.text "76")

/-- A year in two centuries. -/
def year19And20 : Fields := .ofList [("year19", .text "99"), ("year20", .text "12")]

/-- **More is accepted than empty maps and single fields.**  A map with some other field only leaves
the year out, and one with two of the fields is read by the first of them. -/
theorem ofFields_strayCenturies :
    (year18.isEmpty = false ∧ (∀ entry ∈ Year.centuries, year18.get? entry.1 = none) ∧
      ofFields (.singleton "absolute" (.map (julyFourth year18))) 32 =
        .ok (.calendar ⟨some 7, some 4, none⟩)) ∧
    year19And20.contains "year19" = true ∧ year19And20.contains "year20" = true ∧
      ofFields (.singleton "absolute" (.map (julyFourth year19And20))) 32 =
        .ok (.calendar ⟨some 7, some 4, some (.full 2012)⟩) := by
  refine ⟨⟨rfl, ?_, rfl⟩, rfl, rfl, rfl⟩
  decide

end Phrase

end SpokenDate
