/-
Years in texts.

A year may be typed in ASCII digits and nothing else.  Two digits are the last two of a year from
1930 to 2029; digits of any other number are the year as it stands, with any number of zeros in
front.  There are as many bytes as digits, so two characters are two bytes as well.

* **`IsDigits.repr_append`**: digits after a printed number are printed as they stand;
* **`expand?_eq_some_iff_positional`**, **`exists_expand?_iff_positional`**: which texts name
  which years, by bytes;
* **`expand?_twoDigits`**: two digits always name a year, and one that ends in them;
* **`expand?_padded_iff`**: years that are read back from their digits;
* **`expand?_reads_years`**: reading accepts exactly the digits of a year that a word can hold.
-/
import SpokenDate.Proofs.Numeral

namespace SpokenDate

variable {s : String} {n zeros : Nat} {year : Int32}

/-! ### Digits -/

/-- The text with zeros in front. -/
def padded (zeros : Nat) (text : String) : String :=
  String.ofList (List.replicate zeros '0') ++ text

theorem toList_padded : (padded zeros s).toList = List.replicate zeros '0' ++ s.toList := by
  rw [padded, String.toList_append, String.toList_ofList]

theorem length_padded : (padded zeros s).length = zeros + s.length := by
  rw [padded, String.length_append, String.length_ofList, List.length_replicate]

/-- A printed number is digits that come to it. -/
theorem isDigits_repr (n : Nat) : IsDigits n.repr ∧ positional n.repr = n := by
  obtain ⟨hnumeral, hvalue⟩ := isNumeral_repr n
  have hdigits := isDigits_iff.2 hnumeral
  exact ⟨hdigits, (positional_eq_value hdigits).trans hvalue⟩

/-- Digits after a printed number print the number that they go on to. -/
theorem toDigits_append_digits {text : List Char} (h : ∀ c ∈ text, c.isDigit) (hn : 0 < n) :
    Nat.toDigits 10 n ++ text = Nat.toDigits 10 (Nat.ofDigitChars 10 text n) := by
  -- the number in front is left free, since each digit becomes its last one
  induction text generalizing n with
  | nil => exact List.append_nil _
  | cons c text ih =>
    obtain ⟨hlo, hhi⟩ : 48 ≤ c.toNat ∧ c.toNat ≤ 57 :=
      Char.isDigit_iff_toNat.1 (h c List.mem_cons_self)
    have hlast : [c] = Nat.toDigits 10 (c.toNat - 48) := by
      have hchar : (c.toNat - 48).digitChar = c := by
        refine Char.toNat_inj.1 ?_
        rw [Nat.toNat_digitChar_of_lt_ten (by omega)]
        omega
      rw [Nat.toDigits_of_lt_base (by omega), hchar]
    calc Nat.toDigits 10 n ++ c :: text
        = (Nat.toDigits 10 n ++ Nat.toDigits 10 (c.toNat - 48)) ++ text := by
          rw [← hlast, List.append_assoc, List.singleton_append]
      _ = Nat.toDigits 10 (10 * n + (c.toNat - 48)) ++ text := by
          rw [Nat.toDigits_append_toDigits (by decide) hn (by omega)]
      _ = Nat.toDigits 10 (Nat.ofDigitChars 10 (c :: text) n) :=
          ih (fun d hd => h d (List.mem_cons_of_mem _ hd)) (by omega)

namespace IsDigits

/-- Digits are as many bytes as characters. -/
theorem length_utf8 (h : IsDigits s) : (utf8 s).length = s.length := by
  have hdigits := (isDigits_iff.1 h).2
  have hbytes : ∀ c ∈ s.toList, (String.utf8EncodeChar c).length = 1 := by
    intro c hc
    rw [utf8EncodeChar_of_isDigit (hdigits c hc)]
    rfl
  rw [utf8_eq_flatMap, List.length_flatMap, List.map_congr_left hbytes, List.map_const',
    List.sum_replicate_nat, String.length_toList, Nat.mul_one]

theorem positional_lt (h : IsDigits s) : positional s < 10 ^ s.length := by
  rw [positional_eq_value h, ← String.length_toList]
  exact Decimal.value_lt (isDigits_iff.1 h).2

theorem isDigits_padded (h : IsDigits s) : IsDigits (padded zeros s) := by
  obtain ⟨hne, hdigits⟩ := isDigits_iff.1 h
  rw [isDigits_iff, toList_padded]
  refine ⟨List.append_ne_nil_of_right_ne_nil _ hne, fun c hc => ?_⟩
  rcases List.mem_append.1 hc with hzero | hc
  · rw [List.eq_of_mem_replicate hzero]
    rfl
  · exact hdigits c hc

/-- **Zeros in front count nothing.** -/
theorem positional_padded (h : IsDigits s) : positional (padded zeros s) = positional s := by
  have hzeros : Decimal.value (List.replicate zeros '0') = 0 := Nat.ofDigitChars_replicate_zero
  rw [positional_eq_value h.isDigits_padded, toList_padded, Decimal.value_append, hzeros, Nat.zero_mul,
    Nat.zero_add, positional_eq_value h]

/-- **Digits after a printed number are printed as they stand.** -/
theorem repr_append (h : IsDigits s) (hn : 0 < n) :
    n.repr ++ s = (10 ^ s.length * n + positional s).repr := by
  refine String.toList_injective ?_
  rw [String.toList_append, Nat.toList_repr, Nat.toList_repr,
    toDigits_append_digits (isDigits_iff.1 h).2 hn, Nat.ofDigitChars_eq_ofDigitChars_zero,
    String.length_toList, positional_eq_value h]
  rfl

end IsDigits

namespace Year

/-! ### Reading -/

theorem expand?_eq_some_iff_positional :
    expand? s = some year ↔ IsDigits s ∧
      year.toInt = (if s.length = 2 then ofTwoDigits (positional s) else positional s : Nat) := by
  rw [expand?_eq_some_iff, isDigits_iff, String.length_toList]
  refine and_congr_right fun hnumeral => ?_
  rw [positional_eq_value (isDigits_iff.2 hnumeral)]

theorem exists_expand?_iff_positional :
    (∃ year, expand? s = some year) ↔ IsDigits s ∧ positional s < 2 ^ 31 := by
  rw [exists_expand?_iff, isDigits_iff]
  refine and_congr_right fun hnumeral => ?_
  rw [positional_eq_value (isDigits_iff.2 hnumeral)]
  rfl

/-- A year is printed as the number it is. -/
theorem toString_of_toInt_eq (h : year.toInt = (n : Int)) : toString year = n.repr :=
  congrArg toString h

/-- **Two digits name a year of the hundred that the pivot fixes**, and it ends in them. -/
theorem expand?_twoDigits (h : IsDigits s) (hlength : s.length = 2) :
    ∃ year, expand? s = some year ∧ 1930 ≤ year.toInt ∧ year.toInt ≤ 2029 ∧
      ∃ century ∈ ["19", "20"], toString year = century ++ s := by
  have hlt := h.positional_lt
  rw [hlength] at hlt
  obtain ⟨year, hread⟩ := exists_expand?_iff_positional.2 ⟨h, by omega⟩
  have hyear := (expand?_eq_some_iff_positional.1 hread).2
  rw [if_pos hlength] at hyear
  have hends : ∀ first : Nat, 0 < first →
      (10 ^ 2 * first + positional s).repr = first.repr ++ s := by
    intro first hfirst
    rw [h.repr_append hfirst, hlength]
  refine ⟨year, hread, ?_⟩
  rw [toString_of_toInt_eq hyear]
  rcases ofTwoDigits_cases (positional s) with ⟨hlo, hn⟩ | ⟨hhi, hn⟩
  · rw [hn] at hyear ⊢
    exact ⟨by omega, by omega, "19", by simp, hends 19 (by decide)⟩
  · rw [hn] at hyear ⊢
    exact ⟨by omega, by omega, "20", by simp, hends 20 (by decide)⟩

/-- **A year is read back from its digits**, with any number of zeros before them, unless it is
negative or the text has become two digits. -/
theorem expand?_padded_iff :
    expand? (padded zeros (toString year)) = some year ↔
      0 ≤ year.toInt ∧ zeros + (toString year).length ≠ 2 := by
  rw [expand?_eq_some_iff_positional, length_padded]
  constructor
  · rintro ⟨hdigits, hyear⟩
    have hsign : 0 ≤ year.toInt := hyear ▸ Int.natCast_nonneg _
    obtain ⟨n, hn⟩ := Int.eq_ofNat_of_zero_le hsign
    refine ⟨hsign, fun hlength => ?_⟩
    have hlt := hdigits.positional_lt
    rw [if_pos hlength] at hyear
    rw [length_padded, hlength] at hlt
    rw [toString_of_toInt_eq hn] at hyear hlt
    obtain ⟨hrepr, hvalue⟩ := isDigits_repr n
    rw [hrepr.positional_padded, hvalue] at hyear hlt
    -- two digits name no year before 1930
    have hcases := ofTwoDigits_cases n
    omega
  · rintro ⟨hsign, hlength⟩
    obtain ⟨n, hn⟩ := Int.eq_ofNat_of_zero_le hsign
    obtain ⟨hrepr, hvalue⟩ := isDigits_repr n
    rw [if_neg hlength, toString_of_toInt_eq hn]
    exact ⟨hrepr.isDigits_padded, by rw [hrepr.positional_padded, hvalue, hn]⟩

/-- **A text is a year exactly when it is ASCII digits that a word can hold.**

Two digits above 29 count from 1900 and other two digits from 2000, so that they are the last two of
a year from 1930 to 2029.  Digits of any other number are the year that they come to: each year that
is not negative is read back from its digits, with zeros in front or without, unless these are two
characters.  Texts that are read have as many bytes as characters. -/
theorem expand?_reads_years :
    (∀ (s : String) (year : Int32), expand? s = some year ↔
      IsDigits s ∧ positional s ≤ 2 ^ 31 - 1 ∧
        (s.length ≠ 2 ∧ year.toInt = positional s ∨
          s.length = 2 ∧ 29 < positional s ∧ year.toInt = 1900 + positional s ∨
          s.length = 2 ∧ positional s ≤ 29 ∧ year.toInt = 2000 + positional s)) ∧
    (∀ s : String, IsDigits s → s.length = 2 →
      ∃ year, expand? s = some year ∧ 1930 ≤ year.toInt ∧ year.toInt ≤ 2029 ∧
        ∃ century ∈ ["19", "20"], toString year = century ++ s) ∧
    (∀ (zeros : Nat) (year : Int32), expand? (padded zeros (toString year)) = some year ↔
      0 ≤ year.toInt ∧ zeros + (toString year).length ≠ 2) ∧
    (∀ (s : String) (year : Int32), expand? s = some year → (utf8 s).length = s.length) := by
  refine ⟨fun s year => ?_, fun s => expand?_twoDigits, fun _ _ => expand?_padded_iff,
    fun s year h => (expand?_eq_some_iff_positional.1 h).1.length_utf8⟩
  have hfits : expand? s = some year → positional s ≤ 2 ^ 31 - 1 := fun h =>
    Nat.le_sub_one_of_lt (exists_expand?_iff_positional.1 ⟨year, h⟩).2
  rw [← and_iff_right_of_imp hfits, expand?_eq_some_iff_positional, and_left_comm]
  refine and_congr_right fun _ => and_congr_right fun _ => ?_
  by_cases hlength : s.length = 2
  · have hcases := ofTwoDigits_cases (positional s)
    rw [if_pos hlength]
    omega
  · rw [if_neg hlength]
    omega

/-- The two sides of the pivot, and seven with as many zeros as leave it alone. -/
theorem expand?_reads_years_aroundPivot :
    (IsDigits "29" ∧ "29".length = 2 ∧ ∃ year, expand? "29" = some year ∧ 1930 ≤ year.toInt ∧
      year.toInt ≤ 2029 ∧ ∃ century ∈ ["19", "20"], toString year = century ++ "29") ∧
    expand? "30" = some 1930 ∧ (utf8 "30").length = "30".length ∧ expand? "007" = some 7 := by
  have hdigits : IsDigits "29" := isDigits_iff.2 ⟨by decide, by simp⟩
  have hthirty : expand? "30" = some 1930 := by decide
  obtain ⟨-, htwo, hpadded, hbytes⟩ := expand?_reads_years
  exact ⟨⟨hdigits, by decide, htwo "29" hdigits (by decide)⟩, hthirty, hbytes "30" 1930 hthirty,
    (hpadded 2 7).2 ⟨by decide, by decide⟩⟩

/-- Signs, blanks, letters and other digits are refused, and so is what no word can hold. -/
example : ∀ s ∈ ["", "-12", "+12", " 12", "2o12", "٩٩", "2147483648"], expand? s = none := by
  decide

end Year

end SpokenDate
