/-
Integers in texts.

What a text has to be to count as an integer is said here by its bytes: one or more ASCII digits,
of which each counts a power of ten, and at most one minus sign before them.  Reading takes
exactly these texts, as long as a word can hold what they come to, and takes back every integer
that is printed.

* **`isDigits_iff`**: digits by bytes are digits by characters;
* **`positional_eq_value`**: the sum of the powers is what reading from the front comes to;
* **`spells_iff`**: how a text spells an integer, by bytes;
* **`spells_toString`**: what is printed spells what was printed;
* **`integer?_reads_decimals`**: reading accepts exactly the spellings of what a word holds.
-/
import Mathlib.Data.List.Induction
import Mathlib.Data.Nat.Digits.Defs
import SpokenDate.Proofs.ByteOrder
import SpokenDate.Proofs.Grammar

namespace SpokenDate

variable {s : String} {n : Int}

/-- The text is one or more ASCII digits. -/
def IsDigits (text : String) : Prop := text ≠ "" ∧ ∀ byte ∈ utf8 text, 0x30 ≤ byte ∧ byte ≤ 0x39

/-- The number of bytes that are digits to the base of ten. -/
def ofBytes (bytes : List UInt8) : Nat :=
  Nat.ofDigits 10 (bytes.reverse.map fun byte => byte.toNat - 0x30)

/-- The number that digits come to. -/
def positional (text : String) : Nat := ofBytes (utf8 text)

/-! ### Digits -/

/-- A digit is one byte. -/
theorem utf8EncodeChar_of_isDigit {c : Char} (h : c.isDigit = true) :
    String.utf8EncodeChar c = [.ofNat c.toNat] := by
  have hlast : c.toNat ≤ 57 := (Char.isDigit_iff_toNat.1 h).2
  rcases utf8EncodeChar_cases c with ⟨-, hc⟩ | ⟨hc, -⟩ | ⟨hc, -⟩ | ⟨hc, -⟩
  · exact hc
  all_goals omega

/-- **A character is a digit exactly when its bytes are.** -/
theorem isDigit_iff_bytes {c : Char} :
    c.isDigit = true ↔ ∀ byte ∈ String.utf8EncodeChar c, 0x30 ≤ byte ∧ byte ≤ 0x39 := by
  have hword : ∀ k < 256, ((0x30 ≤ UInt8.ofNat k ∧ UInt8.ofNat k ≤ 0x39) ↔ 48 ≤ k ∧ k ≤ 57) := by
    intro k hk
    rw [UInt8.le_iff_toNat_le, UInt8.le_iff_toNat_le, UInt8.toNat_ofNat_of_lt' hk]
    rfl
  constructor
  · intro h byte hbyte
    have hdigit : 48 ≤ c.toNat ∧ c.toNat ≤ 57 := Char.isDigit_iff_toNat.1 h
    rw [utf8EncodeChar_of_isDigit h] at hbyte
    rw [List.mem_singleton.1 hbyte]
    exact (hword c.toNat (by omega)).2 hdigit
  · intro h
    -- the first of several bytes is no digit
    rcases utf8EncodeChar_cases c with ⟨hc, hbytes⟩ | ⟨hc, hbytes⟩ | ⟨hc, hbytes⟩ | ⟨hc, hbytes⟩
    all_goals
      rw [hbytes] at h
      have hfirst := (hword _ (by omega)).1 (h _ List.mem_cons_self)
    · exact Char.isDigit_iff_toNat.2 hfirst
    all_goals omega

/-- **Digits by bytes are digits by characters.** -/
theorem isDigits_iff : IsDigits s ↔ Decimal.IsNumeral s.toList := by
  rw [IsDigits, Decimal.IsNumeral, utf8_eq_flatMap, ne_eq, ne_eq, String.toList_eq_nil_iff]
  refine and_congr Iff.rfl ?_
  simp only [List.mem_flatMap, isDigit_iff_bytes]
  constructor
  · intro h c hc byte hbyte
    exact h byte ⟨c, hc, hbyte⟩
  · rintro h byte ⟨c, hc, hbyte⟩
    exact h c hc byte hbyte

theorem ofBytes_concat (bytes : List UInt8) (byte : UInt8) :
    ofBytes (bytes ++ [byte]) = ofBytes bytes * 10 + (byte.toNat - 0x30) := by
  rw [ofBytes, List.reverse_concat, List.map_cons, Nat.ofDigits_cons, ofBytes]
  omega

/-- **The powers of ten add up to what reading from the front comes to.** -/
theorem positional_eq_value (h : IsDigits s) : positional s = Decimal.value s.toList := by
  have hdigits := (isDigits_iff.1 h).2
  rw [positional, utf8_eq_flatMap]
  generalize s.toList = text at hdigits ⊢
  induction text using List.reverseRecOn with
  | nil => rfl
  | append_singleton text c ih =>
    have hc := hdigits c (List.mem_append_right _ List.mem_cons_self)
    have hlast : c.toNat ≤ 57 := (Char.isDigit_iff_toNat.1 hc).2
    have hvalue : Decimal.value [c] = c.toNat - 0x30 := by simp [Decimal.value]
    rw [List.flatMap_append, List.flatMap_singleton, utf8EncodeChar_of_isDigit hc, ofBytes_concat,
      UInt8.toNat_ofNat_of_lt' (show c.toNat < 256 by omega), Decimal.value_append, hvalue,
      ih fun d hd => hdigits d (List.mem_append_left _ hd)]
    rfl

/-- The same of digits that are given by their characters. -/
theorem isDigits_ofList {text : List Char} (h : Decimal.IsNumeral text) :
    IsDigits (String.ofList text) ∧ positional (String.ofList text) = Decimal.value text := by
  have hdigits : IsDigits (String.ofList text) := isDigits_iff.2 (by rwa [String.toList_ofList])
  exact ⟨hdigits, by rw [positional_eq_value hdigits, String.toList_ofList]⟩

/-! ### Spellings -/

/-- **A text spells an integer by digits and at most one minus sign.** -/
theorem spells_iff :
    Decimal.Spells s.toList n ↔ ∃ digits, IsDigits digits ∧
      (s = digits ∧ n = positional digits ∨ s = "-" ++ digits ∧ n = -positional digits) := by
  constructor
  · rintro (⟨hnumeral, hn⟩ | ⟨digits, hs, hnumeral, hn⟩)
    · have hdigits := isDigits_iff.2 hnumeral
      exact ⟨s, hdigits, .inl ⟨rfl, by rw [positional_eq_value hdigits, hn]⟩⟩
    · obtain ⟨hdigits, hvalue⟩ := isDigits_ofList hnumeral
      refine ⟨String.ofList digits, hdigits, .inr ⟨?_, by rw [hvalue, hn]⟩⟩
      refine String.toList_injective ?_
      rw [hs, String.toList_append, @String.toList_ofList digits]
      rfl
  · rintro ⟨digits, hdigits, ⟨rfl, hn⟩ | ⟨rfl, hn⟩⟩
    · exact .inl ⟨isDigits_iff.1 hdigits, by rw [hn, positional_eq_value hdigits]⟩
    · refine .inr ⟨digits.toList, ?_, isDigits_iff.1 hdigits, ?_⟩
      · rw [String.toList_append]
        rfl
      · rw [hn, positional_eq_value hdigits]

/-- Every number is printed in digits that come to it. -/
theorem isNumeral_repr (k : Nat) :
    Decimal.IsNumeral k.repr.toList ∧ Decimal.value k.repr.toList = k := by
  rw [Nat.toList_repr]
  refine ⟨⟨Nat.toDigits_ne_nil, fun c hc => ?_⟩, Nat.ofDigitChars_ten_toDigits⟩
  exact Nat.isDigit_of_mem_toDigits (by decide) (by decide) hc

/-- **What is printed spells what was printed.** -/
theorem spells_toString (n : Int) : Decimal.Spells (toString n).toList n := by
  rw [Int.toString_eq_repr, Int.repr_eq_if]
  by_cases h : 0 ≤ n
  · obtain ⟨hnumeral, hvalue⟩ := isNumeral_repr n.toNat
    rw [if_pos h]
    exact .inl ⟨hnumeral, by omega⟩
  · obtain ⟨hnumeral, hvalue⟩ := isNumeral_repr (-n).toNat
    rw [if_neg h]
    refine .inr ⟨(-n).toNat.repr.toList, ?_, hnumeral, by omega⟩
    rw [String.toList_append]
    rfl

namespace Value

/-- **A text is an integer exactly when it spells one that a word can hold.**

The integer is what one or more ASCII digits come to, or its negative when one minus sign stands
before them.  All other texts are none, and so are spellings of what no word can hold, which has
one more number below zero than above.  Every integer is read back from how it is printed. -/
theorem integer?_reads_decimals :
    (∀ (s : String) (n : Int64), (text s).integer? = some n ↔ ∃ digits, IsDigits digits ∧
      (s = digits ∧ n.toInt = positional digits ∨
        s = "-" ++ digits ∧ n.toInt = -positional digits)) ∧
    (∀ s : String, (text s).integer? = none ↔ ∀ digits, IsDigits digits →
      (s = digits → 2 ^ 63 ≤ positional digits) ∧
        (s = "-" ++ digits → 2 ^ 63 < positional digits)) ∧
    (∀ n : Int64, (text (toString n)).integer? = some n) := by
  have hreads : ∀ (s : String) (n : Int64), (text s).integer? = some n ↔
      Decimal.Spells s.toList n.toInt := fun _ _ => integer?_eq_some_iff
  refine ⟨fun s n => (hreads s n).trans spells_iff, fun s => ?_, fun n => ?_⟩
  · rw [← Option.not_isSome_iff_eq_none, Option.isSome_iff_exists, exists_integer?_iff, IsInteger]
    simp only [Counts, spells_iff]
    constructor
    · intro h digits hdigits
      constructor
      · intro hs
        refine Decidable.byContradiction fun hlt => h ⟨_, ⟨digits, hdigits, .inl ⟨hs, rfl⟩⟩, ?_⟩
        omega
      · intro hs
        refine Decidable.byContradiction fun hlt => h ⟨_, ⟨digits, hdigits, .inr ⟨hs, rfl⟩⟩, ?_⟩
        omega
    · rintro h ⟨n, ⟨digits, hdigits, ⟨hs, hn⟩ | ⟨hs, hn⟩⟩, hlo, hhi⟩
      · have := (h digits hdigits).1 hs
        omega
      · have := (h digits hdigits).2 hs
        omega
  · exact (hreads _ n).2 (spells_toString n.toInt)

/-- The least integer a word holds, with more digits than needed, is read; one less is not. -/
example : (text "-0009223372036854775808").integer? = some Int64.minValue ∧
    (text "-9223372036854775809").integer? = none ∧ (text "+1").integer? = none ∧
    (text "-").integer? = none ∧ (text "٣").integer? = none := by
  decide

end Value

end SpokenDate
