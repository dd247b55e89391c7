/-
The order of dates under steps by months.

A step by months keeps the distance of a date from the first of its month.  So more months lead
further, and dates of one month keep their distances.  Dates of different months can change places,
but only if their months follow each other and the target month of the earlier date is too short for
its day: then this date spills over into the month that the other one comes to.  Months with 30 days
are not short enough for that, and a February is short by three days at most, of which the first is
that of the other date.

* **`monthIndex_le`**: a later day is not of an earlier month;
* **`lt_of_addMonths?_of_lt`**: more months lead further;
* **`addMonths?_lt_iff`**: the dates that change places;
* **`addMonths?_keeps_order`**: how far steps by months keep the order of dates.
-/
import SpokenDate.Proofs.MonthEnd
import SpokenDate.Proofs.Travel

namespace SpokenDate

namespace Gregorian

/-! ### Months one after the other -/

theorem firstOfMonth_le {index later : Int} (h : index ≤ later) :
    firstOfMonth index ≤ firstOfMonth later := by
  rcases Int.le_iff_lt_or_eq.1 h with hlt | rfl
  · exact Int.le_of_lt (firstOfMonth_lt hlt)
  · exact Int.le_refl _

/-- A later day is not of an earlier month. -/
theorem monthIndex_le {m n : Int} (h : m ≤ n) : monthIndex m ≤ monthIndex n := by
  refine Int.not_lt.1 fun hlt => ?_
  -- the month of `n` would be over when that of `m` begins
  have hover := firstOfMonth_le (show monthIndex n + 1 ≤ monthIndex m by omega)
  have hm := firstOfMonth_monthIndex m
  have hn := firstOfMonth_monthIndex n
  have hfirst := (dayOf_mem m).1
  have hlast := (dayOf_mem n).2
  rw [firstOfMonth_succ, monthIndex_div, monthIndex_mod] at hover
  omega

/-- Only February has fewer than 30 days. -/
theorem eq_two_of_monthLength_lt {year : Int} {month : Nat} (h : monthLength year month < 30) :
    month = 2 := by
  rw [monthLength] at h
  split at h
  · assumption
  · split at h <;> omega

end Gregorian

namespace Date

open Gregorian

variable {d d₁ d₂ e e₁ e₂ : Date} {m n : Int64}

/-- A date lies as far behind the first of its month as its day says. -/
theorem fixed_eq_firstOfMonth (d : Date) :
    d.fixed = firstOfMonth d.ymd.index + (d.day - 1) := by
  rw [← Ymd.number_ymd]
  exact Ymd.number_eq_firstOfMonth (Ymd.isReal_ymd d)

/-- A step by months keeps this distance. -/
theorem fixed_of_addMonths? (h : d.addMonths? n = some e) :
    e.fixed = firstOfMonth (d.ymd.index + n.toInt) + (d.day - 1) :=
  (addMonths?_eq_some_iff.1 h).2

/-- The target month ends where the next one begins. -/
theorem firstOfMonth_target_succ (d : Date) (n : Int) :
    firstOfMonth (d.ymd.index + n + 1) =
      firstOfMonth (d.ymd.index + n) + (d.target n).monthDays :=
  firstOfMonth_succ _

/-! ### Two steps from one date -/

/-- **More months lead further.** -/
theorem lt_of_addMonths?_of_lt (hlt : m.toInt < n.toInt) (h₁ : d.addMonths? m = some e₁)
    (h₂ : d.addMonths? n = some e₂) : e₁ < e₂ := by
  have hfirst := firstOfMonth_lt (show d.ymd.index + m.toInt < d.ymd.index + n.toInt by omega)
  have hfixed₁ := fixed_of_addMonths? h₁
  have hfixed₂ := fixed_of_addMonths? h₂
  rw [lt_iff]
  omega

/-! ### One step from two dates -/

/-- Dates of one month keep their distance. -/
theorem sub_of_addMonths? (hindex : d₁.ymd.index = d₂.ymd.index) (h₁ : d₁.addMonths? n = some e₁)
    (h₂ : d₂.addMonths? n = some e₂) : e₂.fixed - e₁.fixed = d₂.fixed - d₁.fixed := by
  rw [fixed_of_addMonths? h₁, fixed_of_addMonths? h₂, d₁.fixed_eq_firstOfMonth,
    d₂.fixed_eq_firstOfMonth, hindex]
  omega

/-- Between dates of different months lies the rest of the target month of the earlier one, at
least. -/
theorem add_monthDays_le (hindex : d₁.ymd.index < d₂.ymd.index) (h₁ : d₁.addMonths? n = some e₁)
    (h₂ : d₂.addMonths? n = some e₂) :
    e₁.fixed + (d₁.target n.toInt).monthDays + d₂.day ≤ e₂.fixed + d₁.day := by
  have hnext := firstOfMonth_le
    (show d₁.ymd.index + n.toInt + 1 ≤ d₂.ymd.index + n.toInt by omega)
  have hfixed₁ := fixed_of_addMonths? h₁
  have hfixed₂ := fixed_of_addMonths? h₂
  rw [firstOfMonth_target_succ] at hnext
  omega

/-- **The dates that change places** are of months that follow each other, and the target month of
the earlier one lacks more days than the later one has behind it. -/
theorem addMonths?_lt_iff (hle : d₁ ≤ d₂) (h₁ : d₁.addMonths? n = some e₁)
    (h₂ : d₂.addMonths? n = some e₂) :
    e₂ < e₁ ↔ d₂.ymd.index = d₁.ymd.index + 1 ∧
      (d₁.target n.toInt).monthDays + d₂.day < d₁.day := by
  have hfixed₁ := fixed_of_addMonths? h₁
  have hfixed₂ := fixed_of_addMonths? h₂
  have hmonths : d₁.ymd.index ≤ d₂.ymd.index := monthIndex_le hle
  have hsucc := d₁.firstOfMonth_target_succ n.toInt
  rw [lt_iff]
  constructor
  · intro hlt
    rcases Int.lt_trichotomy d₂.ymd.index (d₁.ymd.index + 1) with hsame | hnext | hlater
    · have hgap := sub_of_addMonths? (show d₁.ymd.index = d₂.ymd.index by omega) h₁ h₂
      rw [le_iff] at hle
      omega
    · refine ⟨hnext, ?_⟩
      have hgap := add_monthDays_le (show d₁.ymd.index < d₂.ymd.index by omega) h₁ h₂
      omega
    · -- a whole month lies in between
      have hgap := firstOfMonth_add_le (d₁.ymd.index + n.toInt + 1) 1
      have hfirst := firstOfMonth_le
        (show d₁.ymd.index + n.toInt + 1 + (1 : Nat) ≤ d₂.ymd.index + n.toInt by omega)
      have hshort : 28 ≤ (d₁.target n.toInt).monthDays := monthLength_pos _ _
      have hlong := d₁.day_le
      omega
  · rintro ⟨hnext, hday⟩
    rw [hnext, show d₁.ymd.index + 1 + n.toInt = d₁.ymd.index + n.toInt + 1 by omega] at hfixed₂
    omega

/-- The earlier date comes to lie two days after the other one, at most. -/
theorem fixed_le_add_two (hle : d₁ ≤ d₂) (h₁ : d₁.addMonths? n = some e₁)
    (h₂ : d₂.addMonths? n = some e₂) : e₁.fixed ≤ e₂.fixed + 2 := by
  rcases Int.le_iff_lt_or_eq.1 (monthIndex_le hle) with hlt | hsame
  · have hgap := add_monthDays_le hlt h₁ h₂
    have hshort : 28 ≤ (d₁.target n.toInt).monthDays := monthLength_pos _ _
    have hlong := d₁.day_le
    have hfirst := d₂.day_mem.1
    omega
  · have hgap := sub_of_addMonths? hsame h₁ h₂
    rw [le_iff] at hle
    omega

/-- Only the end of a February is short enough for a date to overtake another. -/
theorem month_target_of_lt (hle : d₁ ≤ d₂) (h₁ : d₁.addMonths? n = some e₁)
    (h₂ : d₂.addMonths? n = some e₂) (hlt : e₂ < e₁) : (d₁.target n.toInt).month = 2 := by
  obtain ⟨-, hday⟩ := (addMonths?_lt_iff hle h₁ h₂).1 hlt
  have hlong := d₁.day_le
  have hfirst := d₂.day_mem.1
  have hdays : (d₁.target n.toInt).monthDays < 30 := by omega
  exact eq_two_of_monthLength_lt hdays

/-- **How far steps by months keep the order of dates.**  From one date more months lead further.
Of two dates the earlier one comes to lie at most two days after the other, and dates of the same
month keep their distance.  Two dates change places exactly where their months follow each other and
the target month of the earlier one lacks more days than the later one has behind it, which takes a
February. -/
theorem addMonths?_keeps_order :
    (∀ (d e₁ e₂ : Date) (m n : Int64), m.toInt < n.toInt → d.addMonths? m = some e₁ →
      d.addMonths? n = some e₂ → e₁ < e₂) ∧
    ∀ (d₁ d₂ e₁ e₂ : Date) (n : Int64), d₁ ≤ d₂ → d₁.addMonths? n = some e₁ →
      d₂.addMonths? n = some e₂ →
        e₁.fixed ≤ e₂.fixed + 2 ∧
        (d₁.year = d₂.year → d₁.month = d₂.month →
          e₂.fixed - e₁.fixed = d₂.fixed - d₁.fixed) ∧
        (e₂ < e₁ ↔ d₂.ymd.index = d₁.ymd.index + 1 ∧
          (d₁.target n.toInt).monthDays + d₂.day < d₁.day) ∧
        (e₂ < e₁ → (d₁.target n.toInt).month = 2) := by
  refine ⟨?_, ?_⟩
  · intro d e₁ e₂ m n hlt h₁ h₂
    exact lt_of_addMonths?_of_lt hlt h₁ h₂
  · intro d₁ d₂ e₁ e₂ n hle h₁ h₂
    refine ⟨fixed_le_add_two hle h₁ h₂, ?_, addMonths?_lt_iff hle h₁ h₂,
      month_target_of_lt hle h₁ h₂⟩
    intro hyear hmonth
    have hindex : d₁.ymd.index = d₂.ymd.index := by
      show 12 * d₁.year + d₁.month - 1 = 12 * d₂.year + d₂.month - 1
      rw [hyear, hmonth]
    exact sub_of_addMonths? hindex h₁ h₂

/-- 1 April 2011. -/
def firstOfApril : Date := ⟨734228, by decide, by decide⟩

/-- 1 March 2011. -/
def firstOfMarch2011 : Date := ⟨734197, by decide, by decide⟩

/-- A month before two days that follow each other, the earlier one lies two days after the other. -/
theorem addMonths?_keeps_order_aroundApril :
    Phrase.lastOfMarch ≤ firstOfApril ∧
    Phrase.lastOfMarch.addMonths? (-1) = some Duration.thirdOfMarch ∧
    firstOfApril.addMonths? (-1) = some firstOfMarch2011 ∧
    firstOfMarch2011 < Duration.thirdOfMarch ∧
    Duration.thirdOfMarch.fixed = firstOfMarch2011.fixed + 2 ∧
    (Phrase.lastOfMarch.target (-1)).month = 2 := by
  have hle : Phrase.lastOfMarch ≤ firstOfApril := by decide
  have h₁ : Phrase.lastOfMarch.addMonths? (-1) = some Duration.thirdOfMarch := by decide +kernel
  have h₂ : firstOfApril.addMonths? (-1) = some firstOfMarch2011 := by decide +kernel
  have hlt : firstOfMarch2011 < Duration.thirdOfMarch := by decide
  obtain ⟨-, -, -, hfebruary⟩ := addMonths?_keeps_order.2 _ _ _ _ (-1) hle h₁ h₂
  exact ⟨hle, h₁, h₂, hlt, rfl, hfebruary hlt⟩

end Date

end SpokenDate
