/-
Years as they are typed.

Exactly two digits name a year of the hundred years that the pivot fixes, from 1930 to
2029; digits of any other number name the year literally.

* **`ofTwoDigits_cases`**: the two sides of the pivot;
* **`expand?_eq_some_iff`**: which texts name which years;
* **`exists_expand?_iff`**: which texts name a year at all.
-/
import SpokenDate.Checked
import SpokenDate.Text.Decimal

namespace SpokenDate

/-- The year of a calendar phrase. -/
inductive Year where
  /-- Digits as they were typed. -/
  | digits (text : String)
  /-- A year in full. -/
  | full (year : Int32)
  deriving DecidableEq, Repr

namespace Year

/-- The last two-digit year of the 2000s, after which the 1900s begin. -/
def pivot : Nat := 29

/-- The year that two digits with value `n` stand for. -/
def ofTwoDigits (n : Nat) : Nat := if pivot < n then 1900 + n else 2000 + n

/-- The year that typed digits name, if they are nothing but digits and a word can hold
their value. -/
def expand? (text : String) : Option Int32 := do
  let n ← Decimal.natural? text.toList
  Checked.int32? (if text.toList.length = 2 then ofTwoDigits n else n)

/-- The year that a token names. -/
def value? : Year → Option Int32
  | digits text => expand? text
  | full year => some year

/-- The pivot is the last of the two-digit years after 1999. -/
theorem ofTwoDigits_cases (n : Nat) :
    29 < n ∧ ofTwoDigits n = 1900 + n ∨ n ≤ 29 ∧ ofTwoDigits n = 2000 + n := by
  rw [ofTwoDigits, pivot]
  split <;> omega

theorem expand?_eq_some_iff {text : String} {year : Int32} :
    expand? text = some year ↔
      (text.toList ≠ [] ∧ ∀ c ∈ text.toList, c.isDigit) ∧
        year.toInt = (if text.toList.length = 2 then ofTwoDigits (Decimal.value text.toList)
          else Decimal.value text.toList : Nat) := by
  rw [expand?]
  constructor
  · intro h
    obtain ⟨n, hn, h⟩ := Option.bind_eq_some_iff.1 h
    obtain ⟨hdigits, rfl⟩ := Decimal.natural?_eq_some_iff.1 hn
    refine ⟨hdigits, ?_⟩
    rw [Checked.int32?_eq_some_iff.1 h]
    split <;> rfl
  · rintro ⟨hdigits, h⟩
    refine Option.bind_eq_some_iff.2 ⟨_, Decimal.natural?_eq_some_iff.2 ⟨hdigits, rfl⟩, ?_⟩
    refine Checked.int32?_eq_some_iff.2 ?_
    rw [h]
    split <;> rfl

theorem exists_expand?_iff {text : String} :
    (∃ year, expand? text = some year) ↔
      Decimal.IsNumeral text.toList ∧ Decimal.value text.toList < 0x80000000 := by
  simp only [expand?_eq_some_iff]
  constructor
  · rintro ⟨year, hnumeral, hyear⟩
    refine ⟨hnumeral, ?_⟩
    have hhi := year.toInt_lt
    split at hyear
    · -- two digits stay below any bound of years
      rename_i hlength
      have hvalue := Decimal.value_lt hnumeral.2
      rw [hlength] at hvalue
      have : Nat.pow 10 2 = 100 := rfl
      omega
    · omega
  · rintro ⟨hnumeral, hvalue⟩
    have hfits : (if text.toList.length = 2 then ofTwoDigits (Decimal.value text.toList)
        else Decimal.value text.toList) < 0x80000000 := by
      split
      · rename_i hlength
        have hvalue := Decimal.value_lt hnumeral.2
        rw [hlength] at hvalue
        have : Nat.pow 10 2 = 100 := rfl
        have hcases := ofTwoDigits_cases (Decimal.value text.toList)
        omega
      · exact hvalue
    exact ⟨Int32.ofInt _, hnumeral, Int32.toInt_ofInt_of_le (by omega) (by omega)⟩

end Year

end SpokenDate
