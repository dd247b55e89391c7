/-
Durations that count one unit only.

An offset from today adds all units of its duration, and a shift takes the leading one.  Where
only one unit counts there is nothing to choose, and the two come to the same date: the steps
that an offset takes by units that count zero lead nowhere else.  They also fail together,
although they multiply in a different order.

* **`leads_filter_iff`**: legs of no length may be left out;
* **`Offset.resolve?_counted_iff`**, **`Shift.from?_iff`**: an offset and a shift by a single
  unit follow the one leg that counts;
* **`resolve?_fromPoint_eq_counted`**: they come to the same date, and to that of the neighbour
  of a unit.
-/
import SpokenDate.Proofs.Exactness

namespace SpokenDate

variable {unit : CalendarUnit} {duration : Duration} {direction : Int64} {d e : Date}

namespace Duration

/-- How many of a unit. -/
def count (duration : Duration) : CalendarUnit → Option Int64
  | .day => duration.days
  | .week => duration.weeks
  | .month => duration.months
  | .year => duration.years

/-- All units but one are absent or count zero. -/
def CountsOnly (duration : Duration) (unit : CalendarUnit) : Prop :=
  ∀ other, other ≠ unit → amount (duration.count other) = 0

theorem count_single (unit other : CalendarUnit) (n : Int64) :
    (single unit n).count other = if other = unit then some n else none := by
  cases unit <;> cases other <;> rfl

theorem countsOnly_single (unit : CalendarUnit) (n : Int64) : (single unit n).CountsOnly unit := by
  intro other hother
  rw [count_single, if_neg hother]
  rfl

theorem legs_eq_map (duration : Duration) (sign : Int) :
    duration.legs sign = [CalendarUnit.day, .week, .month, .year].map fun unit =>
      unit.leg (sign * amount (duration.count unit)) := rfl

theorem count_of_leading? {n : Int64} (h : duration.leading? = some (unit, n)) :
    duration.count unit = some n ∧ n ≠ 0 := by
  obtain ⟨⟨other, count⟩, hmem, h⟩ := List.exists_of_findSome?_eq_some h
  obtain ⟨m, hm, heq⟩ := Option.map_eq_some_iff.1 h
  obtain ⟨rfl, rfl⟩ := Prod.mk.inj heq
  obtain ⟨hcount, hne⟩ := Option.filter_eq_some_iff.1 hm
  refine ⟨?_, of_decide_eq_true hne⟩
  simp only [List.mem_cons, Prod.mk.injEq, List.not_mem_nil, or_false] at hmem
  rcases hmem with ⟨rfl, rfl⟩ | ⟨rfl, rfl⟩ | ⟨rfl, rfl⟩ | ⟨rfl, rfl⟩ <;> exact hcount

theorem amount_of_leading?_eq_none (h : duration.leading? = none) (unit : CalendarUnit) :
    amount (duration.count unit) = 0 := by
  have hall := List.findSome?_eq_none_iff.1 h
  have hmem : (unit, duration.count unit) ∈ [(CalendarUnit.year, duration.years),
      (.month, duration.months), (.day, duration.days), (.week, duration.weeks)] := by
    cases unit <;> simp [count]
  have hnone := Option.map_eq_none_iff.1 (hall _ hmem)
  rcases filter_ne_zero_cases (duration.count unit) with ⟨hzero, -⟩ | ⟨n, -, -, hsome⟩
  · exact hzero
  · cases hnone.symm.trans hsome

end Duration

/-- Legs of no length may be left out. -/
theorem leads_filter_iff {n : CalendarUnit → Int} {p : CalendarUnit → Bool}
    (h : ∀ unit, p unit = false → n unit = 0) (units : List CalendarUnit) :
    Leads (units.map fun unit => unit.leg (n unit)) d.fixed e.fixed ↔
      Leads ((units.filter p).map fun unit => unit.leg (n unit)) d.fixed e.fixed := by
  induction units generalizing d with
  | nil => rfl
  | cons unit units ih =>
    rw [List.map_cons, ← List.singleton_append, leads_append_iff]
    cases hp : p unit with
    | false =>
      rw [List.filter_cons_of_neg (by simp [hp]), ← ih, h unit hp]
      simp only [leads_leg_zero, exists_eq_left']
    | true =>
      rw [List.filter_cons_of_pos hp, List.map_cons, ← List.singleton_append (l := List.map _ _),
        leads_append_iff]
      simp only [ih]

/-- The legs of a duration are the one leg that counts. -/
theorem leads_legs_iff (h : duration.CountsOnly unit) (sign : Int) :
    Leads (duration.legs sign) d.fixed e.fixed ↔
      Leads [unit.leg (sign * amount (duration.count unit))] d.fixed e.fixed := by
  have hzero : ∀ other, decide (other = unit) = false →
      sign * amount (duration.count other) = 0 := by
    intro other hother
    rw [h other (of_decide_eq_false hother), Int.mul_zero]
  have hunits : [CalendarUnit.day, .week, .month, .year].filter (decide <| · = unit) = [unit] := by
    cases unit <;> rfl
  rw [Duration.legs_eq_map, leads_filter_iff hzero, hunits]
  rfl

theorem Offset.resolve?_counted_iff (h : duration.CountsOnly unit)
    (hdirection : direction = 1 ∨ direction = -1) :
    (counted ⟨some duration, some direction⟩).resolve? d = some e ↔
      Leads [unit.leg (amount (duration.count unit) * direction.toInt)] d.fixed e.fixed := by
  have hsign : (if direction.toInt < 0 then -1 else 1) = direction.toInt := by
    rcases hdirection with rfl | rfl <;> rfl
  rw [Offset.resolve?_iff_leads]
  simp only [Offset.legs?, Option.some_inj, exists_eq_left', hsign]
  rw [leads_legs_iff h, Int.mul_comm]

theorem Shift.from?_iff (h : duration.CountsOnly unit)
    (hdirection : direction = 1 ∨ direction = -1) :
    from? ⟨some duration, some direction⟩ d = some e ↔
      Leads [unit.leg (amount (duration.count unit) * direction.toInt)] d.fixed e.fixed := by
  have hne : direction.toInt ≠ 0 := by
    rcases hdirection with rfl | rfl <;> decide
  simp only [from?, bind, Option.bind_some]
  cases hleading : duration.leading? with
  | none =>
    rw [Duration.amount_of_leading?_eq_none hleading, Int.zero_mul, leads_leg_zero]
    exact Option.some_inj
  | some leading =>
    obtain ⟨other, n⟩ := leading
    obtain ⟨hcount, hnonzero⟩ := Duration.count_of_leading? hleading
    have hamount : amount (duration.count other) = n.toInt := by
      rw [hcount]
      rfl
    -- the leading unit does not count zero, so it is the one that counts
    obtain rfl : other = unit := by
      refine Decidable.byContradiction fun hother => hnonzero ?_
      exact Int64.toInt_inj.1 (hamount.symm.trans (h other hother))
    rw [hamount]
    exact stepFrom?_iff_leads hne

namespace Phrase

/-- **Shifts and offsets agree on single units.**  Before or after a date, or today, a shift by
one unit comes to the date that the same offset comes to on that day, or to none where it does.
With a direction of 1 both are the neighbour of the unit. -/
theorem resolve?_fromPoint_eq_counted (h : duration.CountsOnly unit)
    (hdirection : direction = 1 ∨ direction = -1) (date today : Date) :
    (fromPoint ⟨some duration, some direction⟩ (some (.date date))).resolve? today =
        (offset (.counted ⟨some duration, some direction⟩)).resolve? date ∧
      (fromPoint ⟨some duration, some direction⟩ (some .now)).resolve? today =
        (offset (.counted ⟨some duration, some direction⟩)).resolve? today ∧
      ∀ unit count,
        (fromPoint ⟨some (.single unit count), some 1⟩ (some (.date date))).resolve? today =
            (offset (.adjacent (some unit) (some count))).resolve? date ∧
          (fromPoint ⟨some (.single unit count), some 1⟩ (some .now)).resolve? today =
            (offset (.adjacent (some unit) (some count))).resolve? today ∧
          (offset (.counted ⟨some (.single unit count), some 1⟩)).resolve? today =
            (offset (.adjacent (some unit) (some count))).resolve? today := by
  have key : ∀ {unit : CalendarUnit} {duration : Duration} {direction : Int64} (start : Date),
      duration.CountsOnly unit → direction = 1 ∨ direction = -1 →
      Shift.from? ⟨some duration, some direction⟩ start =
        (Offset.counted ⟨some duration, some direction⟩).resolve? start := by
    intro unit duration direction start h hdirection
    refine Option.ext fun e => ?_
    rw [Shift.from?_iff h hdirection, Offset.resolve?_counted_iff h hdirection]
  refine ⟨key date h hdirection, key today h hdirection, ?_⟩
  intro unit count
  have hsingle := Duration.countsOnly_single unit count
  exact ⟨key date hsingle (.inl rfl), key today hsingle (.inl rfl), rfl⟩

/-- One month, where the other units are absent or count zero. -/
def oneMonth : Duration := ⟨some 0, none, some 1, some 0⟩

/-- 31 March 2011. -/
def lastOfMarch : Date := ⟨734227, by decide, by decide⟩

/-- A month before 31 March 2011 is 3 March, whichever way it is counted. -/
theorem resolve?_month_before_lastOfMarch :
    oneMonth.CountsOnly .month ∧ ((-1 : Int64) = 1 ∨ (-1 : Int64) = -1) ∧
      (fromPoint ⟨some oneMonth, some (-1)⟩ (some (.date lastOfMarch))).resolve? lastOfMarch =
        (offset (.counted ⟨some oneMonth, some (-1)⟩)).resolve? lastOfMarch ∧
      (offset (.counted ⟨some oneMonth, some (-1)⟩)).resolve? lastOfMarch =
        Date.ofYmd? 2011 3 3 := by
  have hmonth : oneMonth.CountsOnly .month
    | .day, _ => rfl
    | .week, _ => rfl
    | .month, h => absurd rfl h
    | .year, _ => rfl
  have hdirection : (-1 : Int64) = 1 ∨ (-1 : Int64) = -1 := .inr rfl
  exact ⟨hmonth, hdirection,
    (resolve?_fromPoint_eq_counted hmonth hdirection lastOfMarch lastOfMarch).1,
    by decide +kernel⟩

end Phrase

end SpokenDate
