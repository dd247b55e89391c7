/-
Where durations lead, by the signs of their counts.

A step by months may roll over the end of a short month, and then it ends a few days later than
asked for, also on the way back.  This never turns it round: both its ends lie as far behind the
first of a month, and months begin one after the other.  So every leg leads ahead, back or nowhere
as its count says, and legs that agree in this add up.

* **`Leg.sign_arrival_sub`**: a single leg leads where the sign of its count says;
* **`Leg.travel`**: so do several legs, none of which goes the other way;
* **`Duration.addTo?_travels`**: and so does a duration.

Design notes: ahead and back are told by one statement, which multiplies by a sign.
-/
import SpokenDate.Proofs.SingleUnit

namespace SpokenDate

open Gregorian

variable {sign start : Int} {legs : List Leg} {duration : Duration} {t r : Date}

section Signs

variable {a b : Int}

/-- A product is not negative for a factor and for another one of the same sign. -/
theorem mul_nonneg_iff_of_sign_eq (h : a.sign = b.sign) (sign : Int) :
    0 ≤ sign * a ↔ 0 ≤ sign * b := by
  rw [← Int.sign_nonneg_iff, Int.sign_mul, h, ← Int.sign_mul, Int.sign_nonneg_iff]

theorem mul_pos_iff_of_sign_eq (h : a.sign = b.sign) (sign : Int) :
    0 < sign * a ↔ 0 < sign * b := by
  rw [← Int.sign_pos_iff, Int.sign_mul, h, ← Int.sign_mul, Int.sign_pos_iff]

end Signs

/-- Months begin one after the other. -/
theorem Gregorian.firstOfMonth_lt {index later : Int} (h : index < later) :
    firstOfMonth index < firstOfMonth later := by
  have hgap := firstOfMonth_add_le index (later - index).toNat
  rw [show index + (later - index).toNat = later by omega] at hgap
  omega

/-! ### Legs -/

/-- **A leg leads where its count says**: ahead, back, or nowhere. -/
theorem Leg.sign_arrival_sub (leg : Leg) (start : Int) :
    (leg.arrival start - start).sign = leg.count.sign := by
  cases leg with
  | days n =>
    rw [arrival, count, show start + n - start = n by omega]
  | months n =>
    -- the day of the month is the same on both sides
    have hfirst := firstOfMonth_monthIndex start
    have hgap : arrival start (.months n) - start =
        firstOfMonth (monthIndex start + n) - firstOfMonth (monthIndex start) := by
      rw [arrival, hfirst]
      omega
    rw [hgap, count]
    rcases Int.lt_trichotomy n 0 with hn | rfl | hn
    · have hlt := firstOfMonth_lt (show monthIndex start + n < monthIndex start by omega)
      rw [Int.sign_eq_neg_one_of_neg hn, Int.sign_eq_neg_one_of_neg (by omega)]
    · rw [Int.add_zero, Int.sub_self]
    · have hlt := firstOfMonth_lt (show monthIndex start < monthIndex start + n by omega)
      rw [Int.sign_eq_one_of_pos hn, Int.sign_eq_one_of_pos (by omega)]

/-- **Legs that agree on a direction lead there**, and somewhere else than where they start as soon
as one of them does not count zero. -/
theorem Leg.travel (h : ∀ leg ∈ legs, 0 ≤ sign * leg.count) :
    0 ≤ sign * (arrivalAlong start legs - start) ∧
      (0 < sign * (arrivalAlong start legs - start) ↔ ∃ leg ∈ legs, 0 < sign * leg.count) := by
  induction legs generalizing start with
  | nil => simp [arrivalAlong]
  | cons leg legs ih =>
    obtain ⟨hleg, hlegs⟩ := List.forall_mem_cons.1 h
    obtain ⟨hrest, hahead⟩ := @ih (leg.arrival start) hlegs
    have hfirst := (mul_nonneg_iff_of_sign_eq (leg.sign_arrival_sub start) sign).2 hleg
    have hsplit : sign * (arrivalAlong start (leg :: legs) - start) =
        sign * (leg.arrival start - start) +
          sign * (arrivalAlong (leg.arrival start) legs - leg.arrival start) := by
      rw [← Int.mul_add]
      congr 1
      show arrivalAlong (leg.arrival start) legs - start = _
      omega
    -- the first leg and the others go the same way, so what they cover adds up
    simp only [List.mem_cons, exists_eq_or_imp]
    rw [hsplit, ← hahead, ← mul_pos_iff_of_sign_eq (leg.sign_arrival_sub start)]
    omega

/-! ### Durations -/

/-- Seven days and twelve months go the way of the week and the year. -/
theorem CalendarUnit.sign_count_leg (unit : CalendarUnit) (n : Int) :
    (unit.leg n).count.sign = n.sign := by
  cases unit with
  | day => rfl
  | month => rfl
  | week => rw [leg, Leg.count, Int.sign_mul, show (7 : Int).sign = 1 from rfl, Int.one_mul]
  | year => rw [leg, Leg.count, Int.sign_mul, show (12 : Int).sign = 1 from rfl, Int.one_mul]

namespace Duration

/-- A duration leads the way on which its counts agree. -/
theorem travel (h : duration.addTo? t = some r)
    (hcounts : ∀ count ∈ duration.counts, 0 ≤ sign * amount count) :
    0 ≤ sign * (r.fixed - t.fixed) ∧
      (0 < sign * (r.fixed - t.fixed) ↔ ∃ count ∈ duration.counts, 0 < sign * amount count) := by
  obtain ⟨-, harrival⟩ := addTo?_iff_leads.1 h
  have hnonneg := fun unit n => mul_nonneg_iff_of_sign_eq (CalendarUnit.sign_count_leg unit n) sign
  have hpos := fun unit n => mul_pos_iff_of_sign_eq (CalendarUnit.sign_count_leg unit n) sign
  have hlegs : ∀ leg ∈ duration.legs 1, 0 ≤ sign * leg.count := by
    simpa only [legs, counts, Int.one_mul, List.forall_mem_cons, List.not_mem_nil, false_implies,
      implies_true, hnonneg] using hcounts
  have hsome : (∃ leg ∈ duration.legs 1, 0 < sign * leg.count) ↔
      ∃ count ∈ duration.counts, 0 < sign * amount count := by
    simp only [legs, counts, Int.one_mul, List.mem_cons, exists_eq_or_imp, hpos, List.not_mem_nil,
      false_and, exists_false]
  rw [← harrival, ← hsome]
  exact Leg.travel hlegs

theorem pointsToPast_iff_amount :
    duration.pointsToPast = true ↔ ∃ count ∈ duration.counts, amount count < 0 := by
  rw [pointsToPast_iff]
  constructor
  · rintro ⟨n, hmem, hn⟩
    exact ⟨some n, hmem, hn⟩
  · rintro ⟨count, hmem, hcount⟩
    cases count with
    | none => exact absurd hcount (Int.lt_irrefl 0)
    | some n => exact ⟨n, hmem, hcount⟩

theorem pointsToPast_eq_false_iff :
    duration.pointsToPast = false ↔ ∀ count ∈ duration.counts, 0 ≤ amount count := by
  rw [← Bool.not_eq_true, pointsToPast_iff_amount]
  simp only [not_exists, not_and, Int.not_lt]

/-- Without a negative count a duration does not lead back. -/
theorem ahead_of_addTo? (hahead : duration.pointsToPast = false)
    (h : duration.addTo? t = some r) :
    t ≤ r ∧ (t < r ↔ ∃ count ∈ duration.counts, 0 < amount count) := by
  have hcounts : ∀ count ∈ duration.counts, 0 ≤ 1 * amount count := by
    simpa only [Int.one_mul] using pointsToPast_eq_false_iff.1 hahead
  obtain ⟨hle, hlt⟩ := travel h hcounts
  simp only [Int.one_mul] at hlt
  rw [Date.le_iff, Date.lt_iff, ← hlt]
  omega

/-- Without a positive count a duration does not lead ahead. -/
theorem back_of_addTo? (hback : ∀ count ∈ duration.counts, amount count ≤ 0)
    (h : duration.addTo? t = some r) :
    r ≤ t ∧ (r < t ↔ duration.pointsToPast = true) := by
  have hcounts : ∀ count ∈ duration.counts, 0 ≤ -1 * amount count := by
    intro count hmem
    have := hback count hmem
    omega
  obtain ⟨hle, hlt⟩ := travel h hcounts
  have hsome : (∃ count ∈ duration.counts, 0 < -1 * amount count) ↔
      duration.pointsToPast = true := by
    rw [pointsToPast_iff_amount]
    refine exists_congr fun count => and_congr_right fun _ => ?_
    omega
  rw [Date.le_iff, Date.lt_iff, ← hsome, ← hlt]
  omega

/-- **The signs of a duration decide where it leads.**  Without a negative count it does not lead
back, and leads ahead exactly if some count is positive.  Without a positive count it does not lead
ahead, and leads back exactly if some count is negative. -/
theorem addTo?_travels (h : duration.addTo? t = some r) :
    (duration.pointsToPast = false →
      t ≤ r ∧ (t < r ↔ ∃ count ∈ duration.counts, 0 < amount count)) ∧
    ((∀ count ∈ duration.counts, amount count ≤ 0) →
      r ≤ t ∧ (r < t ↔ duration.pointsToPast = true)) := by
  constructor
  · intro hahead
    exact ahead_of_addTo? hahead h
  · intro hback
    exact back_of_addTo? hback h

/-- 3 March 2011. -/
def thirdOfMarch : Date := ⟨734199, by decide, by decide⟩

/-- A month before 31 March is still in March, where February is short, and yet lies earlier. -/
theorem addTo?_travels_monthBack :
    (single .month (-1)).addTo? Phrase.lastOfMarch = some thirdOfMarch ∧
    (∀ count ∈ (single .month (-1)).counts, amount count ≤ 0) ∧
    thirdOfMarch.month = Phrase.lastOfMarch.month ∧ thirdOfMarch < Phrase.lastOfMarch := by
  have hadd : (single .month (-1)).addTo? Phrase.lastOfMarch = some thirdOfMarch := by
    decide +kernel
  have hback : ∀ count ∈ (single .month (-1)).counts, amount count ≤ 0 := by
    simp only [single, empty, counts, List.forall_mem_cons, List.not_mem_nil, false_implies,
      implies_true, and_true]
    decide
  obtain ⟨-, hlt⟩ := (addTo?_travels hadd).2 hback
  exact ⟨hadd, hback, rfl, hlt.2 rfl⟩

end Duration

end SpokenDate
