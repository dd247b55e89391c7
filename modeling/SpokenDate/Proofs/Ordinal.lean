/-
Days of the month in texts.

A day may be written in digits that one of the suffixes of ordinals follows.  Reading makes the
letters small first and then looks for a suffix at the end; here the text as it stands is split
from the front, into its leading digits and the rest.

* **`IsOrdinal`**: digits, and what may follow them;
* **`IsOrdinal.takeWhile_eq`**, **`IsOrdinal.split_unique`**: the digits are all that the text
  begins with, so it can be split in one way only;
* **`ordinal?_lower_iff`**: reading accepts exactly the texts that can be split;
* **`read_day_accepts_ordinals`**: a field for the day holds such a text, or is refused.
-/
import SpokenDate.Proofs.Numeral
import SpokenDate.Proofs.Spelling

namespace SpokenDate

variable {s t u : String}

/-- The texts are digits, and nothing or one suffix of ordinals in any case of its letters. -/
structure IsOrdinal (digits suffix : String) : Prop where
  isDigits : IsDigits digits
  lower_mem : lower suffix ∈ ["", "st", "nd", "rd", "th"].map String.toList

/-! ### The split -/

/-- A suffix has no digits. -/
theorem IsOrdinal.head?_not_isDigit (h : IsOrdinal t u) {c : Char} (hc : u.toList.head? = some c) :
    c.isDigit = false := by
  have hletters : ∀ small ∈ ["", "st", "nd", "rd", "th"].map String.toList,
      small.head?.all fun c => !c.isDigit := by decide
  have hfirst := hletters _ h.lower_mem
  rw [lower, List.head?_map, hc] at hfirst
  refine Bool.eq_false_iff.2 fun hdigit => ?_
  -- a digit has no other case
  have hsame : c.toLower = c := toLower_eq_of_lt (.inl (lt_of_isDigit hdigit))
  simp [hsame, hdigit] at hfirst

/-- **The digits are all those that the text begins with.** -/
theorem IsOrdinal.takeWhile_eq (h : IsOrdinal t u) :
    (t ++ u).toList.takeWhile Char.isDigit = t.toList := by
  rw [String.toList_append, List.takeWhile_append_of_pos (isDigits_iff.1 h.isDigits).2]
  have hstop : u.toList.takeWhile Char.isDigit = [] := by
    cases hu : u.toList with
    | nil => rfl
    | cons c rest =>
      have hc : c.isDigit = false := h.head?_not_isDigit (hu ▸ rfl)
      exact List.takeWhile_cons_of_neg (by rw [hc]; exact Bool.false_ne_true)
  rw [hstop, List.append_nil]

/-- **A text can be split in one way only.** -/
theorem IsOrdinal.split_unique {t' u' : String} (h : IsOrdinal t u) (h' : IsOrdinal t' u')
    (heq : t ++ u = t' ++ u') : t = t' ∧ u = u' := by
  have hdigits : t = t' := by
    refine String.toList_injective ?_
    rw [← h.takeWhile_eq, heq, h'.takeWhile_eq]
  have hchars := congrArg String.toList heq
  rw [String.toList_append, String.toList_append, ← hdigits] at hchars
  exact ⟨hdigits, String.toList_injective (List.append_cancel_left hchars)⟩

/-! ### Reading -/

/-- **Reading accepts exactly the texts that can be split into digits and a suffix.** -/
theorem ordinal?_lower_iff {n : Nat} :
    Decimal.ordinal? (lower s) = some n ↔
      ∃ digits suffix, s = digits ++ suffix ∧ IsOrdinal digits suffix ∧ positional digits = n := by
  rw [Decimal.ordinal?_eq_some_iff]
  constructor
  · rintro ⟨small, suffix, hsuffix, hlower, hn⟩
    obtain ⟨hnumeral, rfl⟩ := Decimal.natural?_eq_some_iff.1 hn
    obtain ⟨hdigits, hvalue⟩ := isDigits_ofList hnumeral
    obtain ⟨first, second, hs, hfirst, hsecond⟩ := List.map_eq_append_iff.1 hlower
    -- digits are the same before their letters are made small
    have hsame : first = small := by
      refine (map_toLower_eq fun c hc => .inr ?_).symm.trans hfirst
      exact lt_of_isDigit (hnumeral.2 _ (hfirst ▸ List.mem_map_of_mem hc))
    have hrest : lower (String.ofList second) = suffix.toList := by
      rw [lower, String.toList_ofList, hsecond]
    refine ⟨String.ofList small, String.ofList second, ?_, ⟨hdigits, ?_⟩, hvalue⟩
    · refine String.toList_injective ?_
      rw [hs, hsame, String.toList_append, @String.toList_ofList small,
        @String.toList_ofList second]
    · rw [hrest]
      exact List.mem_map_of_mem hsuffix
  · rintro ⟨digits, suffix, rfl, ⟨hdigits, hsuffix⟩, hn⟩
    obtain ⟨small, hsmall, heq⟩ := List.mem_map.1 hsuffix
    have hnumeral := isDigits_iff.1 hdigits
    refine ⟨digits.toList, small, hsmall, ?_, ?_⟩
    · rw [lower, String.toList_append, List.map_append, heq]
      exact congrArg (· ++ lower suffix) (Caseless.of_isNumeral hnumeral).lower_eq
    · exact Decimal.natural?_eq_some_iff.2 ⟨hnumeral, by rw [← positional_eq_value hdigits, hn]⟩

namespace Fields

variable {fields : Fields}

/-- **A text for the day is digits and at most one suffix.**

It is read as the number that the digits come to, where a word of 32 bits can hold it, and the
split into digits and suffix is the only one.  Any other text is refused in the name of the day,
and so is the whole phrase, as long as the field before it, the month, is read. -/
theorem read_day_accepts_ordinals (hday : fields.get? "day" = some (.text s)) :
    (∀ n : UInt32, fields.read "day" .day = .ok (some n) ↔ ∃ digits suffix,
      s = digits ++ suffix ∧ IsOrdinal digits suffix ∧ positional digits = n.toNat) ∧
    (∀ digits suffix digits' suffix', s = digits ++ suffix → IsOrdinal digits suffix →
      s = digits' ++ suffix' → IsOrdinal digits' suffix' →
      digits = digits' ∧ suffix = suffix') ∧
    (fields.read "day" .day = .error (.invalidField "day" .day .text) ↔ ∀ digits suffix,
      s = digits ++ suffix → IsOrdinal digits suffix → 2 ^ 32 ≤ positional digits) ∧
    (∀ month, fields.read "month" .month = .ok month → CalendarPhrase.ofFields fields =
      (fields.read "day" .day).bind fun day =>
        (CalendarPhrase.readYear fields).map fun year => ⟨month, day, year⟩) := by
  have hreads : ∀ n : UInt32, (Value.text s).day? = some n ↔ ∃ digits suffix,
      s = digits ++ suffix ∧ IsOrdinal digits suffix ∧ positional digits = n.toNat :=
    fun _ => Value.day?_text.trans ordinal?_lower_iff
  refine ⟨fun n => ?_, fun t u t' u' hs h hs' h' => h.split_unique h' (hs ▸ hs'), ?_, ?_⟩
  · rw [read_eq_ok_some_iff, hday, ← hreads]
    simp only [Option.some_inj, exists_eq_left']
    rfl
  · rw [read_eq_error_iff, hday]
    constructor
    · rintro ⟨_, ⟨⟩, hnone, -⟩ digits suffix hs hordinal
      refine Decidable.byContradiction fun hlt => ?_
      have hword := UInt32.toNat_ofNat_of_lt' (show positional digits < 2 ^ 32 by omega)
      have hsome := (hreads _).2 ⟨digits, suffix, hs, hordinal, hword.symm⟩
      cases hnone.symm.trans hsome
    · intro h
      refine ⟨_, rfl, Option.eq_none_iff_forall_ne_some.2 fun n hn => ?_, rfl⟩
      obtain ⟨digits, suffix, hs, hordinal, hvalue⟩ := (hreads n).1 hn
      have hlarge := h digits suffix hs hordinal
      have hsmall := n.toNat_lt
      omega
  · intro month hmonth
    rw [CalendarPhrase.ofFields, hmonth]
    cases fields.read "day" .day with
    | error => rfl
    | ok day => cases CalendarPhrase.readYear fields <;> rfl

/-- The twenty-second in capitals, with more digits than needed. -/
theorem read_day_accepts_ordinals_twentySecond :
    (ofList [("month", .text "may"), ("day", .text "0022ND")]).get? "day" =
      some (.text "0022ND") ∧
    IsOrdinal "0022" "ND" ∧
    (ofList [("month", .text "may"), ("day", .text "0022ND")]).read "day" .day = .ok (some 22) := by
  have hday : (ofList [("month", .text "may"), ("day", .text "0022ND")]).get? "day" =
      some (.text "0022ND") := by decide
  have hordinal : IsOrdinal "0022" "ND" := ⟨isDigits_iff.2 ⟨by decide, by simp⟩, by decide⟩
  exact ⟨hday, hordinal,
    ((read_day_accepts_ordinals hday).1 22).2 ⟨"0022", "ND", by decide, hordinal, by decide⟩⟩

/-- A second suffix is refused, and so are a suffix alone, a sign and other characters. -/
example : ∀ s ∈ ["4thth", "th", "-4", "+4", "4 th", "4ᵗʰ", "٤", "4294967296"],
    (Value.text s).day? = none := by
  decide

end Fields

end SpokenDate
