/-
The ends of months, and steps by months across them.

A step by months asks for the same day of another month.  Where that month is shorter, the days
that it lacks are taken from the month after it, which are three at most.  Such a month is never
December, so the year stays the same and the span is not left.  A step back undoes a step exactly
where no day was taken from the month after.

* **`Ymd.isReal_onDay`**, **`Ymd.number_onDay`**: a day of a month that may be too short for it;
* **`addMonths?_eq_some_iff_onDay`**: a step by months goes to this day of its target month;
* **`addMonths?_neg_eq_some_iff`**: the steps that a step back undoes;
* **`addMonths?_lands_or_spills`**: all of this, for all counts.
-/
import SpokenDate.Proofs.Rollover

namespace SpokenDate

open Gregorian

namespace Ymd

/-- The length of the month of a day. -/
def monthDays (c : Ymd) : Nat := monthLength c.year c.month

/-- The `day`-th day from the first of a month on, where a day that the month lacks is one of the
month after. -/
def onDay (first : Ymd) (day : Nat) : Ymd :=
  if day ≤ first.monthDays then { first with day := day }
  else { first with month := first.month + 1, day := day - first.monthDays }

variable {first : Ymd} {day : Nat}

theorem onDay_of_le (h : day ≤ first.monthDays) :
    first.onDay day = { first with day := day } := if_pos h

theorem onDay_of_lt (h : first.monthDays < day) :
    first.onDay day = { first with month := first.month + 1, day := day - first.monthDays } :=
  if_neg (Nat.not_le.2 h)

/-- Days taken from the month after are of the same year. -/
theorem year_onDay (first : Ymd) (day : Nat) : (first.onDay day).year = first.year := by
  rw [onDay]
  split <;> rfl

/-- December has all the days that any month has. -/
theorem month_lt_of_monthDays_lt (hmonth : first.month ≤ 12) (hday : day ≤ 31)
    (h : first.monthDays < day) : first.month < 12 := by
  refine Nat.lt_of_le_of_ne hmonth fun hlast => ?_
  have hdays : first.monthDays = 31 := by
    rw [monthDays, hlast]
    rfl
  omega

theorem isReal_onDay (hmonth : 1 ≤ first.month ∧ first.month ≤ 12) (hday : 1 ≤ day ∧ day ≤ 31) :
    (first.onDay day).IsReal := by
  rcases Nat.lt_or_ge first.monthDays day with hlt | hle
  · have hbefore := month_lt_of_monthDays_lt hmonth.2 hday.2 hlt
    have hshort : 28 ≤ first.monthDays := monthLength_pos _ _
    have hafter := monthLength_pos first.year (first.month + 1)
    rw [onDay_of_lt hlt]
    constructor
    · simp only
      omega
    · simp only
      omega
  · rw [onDay_of_le hle]
    exact ⟨hmonth, hday.1, hle⟩

/-- In whichever month it is, the day lies as far behind the first as it says. -/
theorem number_onDay (hmonth : 1 ≤ first.month) (day : Nat) :
    (first.onDay day).number = fixed first.year first.month 1 + (day - 1) := by
  have hsucc := daysBeforeMonth_succ first.year hmonth
  rcases Nat.lt_or_ge first.monthDays day with hlt | hle
  · rw [onDay_of_lt hlt]
    simp only [number, fixed, monthDays] at hlt ⊢
    omega
  · rw [onDay_of_le hle]
    simp only [number, fixed]
    omega

theorem index_onDay_of_le (h : day ≤ first.monthDays) : (first.onDay day).index = first.index := by
  rw [onDay_of_le h]
  rfl

theorem index_onDay_of_lt (h : first.monthDays < day) :
    (first.onDay day).index = first.index + 1 := by
  rw [onDay_of_lt h]
  simp only [index]
  omega

theorem index_le_onDay (first : Ymd) (day : Nat) : first.index ≤ (first.onDay day).index := by
  rcases Nat.lt_or_ge first.monthDays day with hlt | hle
  · rw [index_onDay_of_lt hlt]
    omega
  · exact Int.le_of_eq (index_onDay_of_le hle).symm

theorem index_firstOf (index : Int) : (firstOf index).index = index := by
  simp only [Ymd.index, firstOf]
  omega

/-- A real day is reached from the first of its month. -/
theorem onDay_firstOf_index {c : Ymd} (h : c.IsReal) : (firstOf c.index).onDay c.day = c := by
  obtain ⟨hmonth, hday⟩ := h
  have hfirst : firstOf c.index = { c with day := 1 } := by
    rw [firstOf, index, show (12 * c.year + c.month - 1) / 12 = c.year by omega,
      show ((12 * c.year + c.month - 1) % 12 + 1).toNat = c.month by omega]
  rw [hfirst]
  exact onDay_of_le hday.2

end Ymd

namespace Date

open Ymd

variable {d e : Date} {n : Int64}

/-- The first day of the month that lies `n` months from that of the date. -/
def target (d : Date) (n : Int) : Ymd := .firstOf (12 * d.year + d.month - 1 + n)

theorem isReal_onDay_target (d : Date) (n : Int) : ((d.target n).onDay d.day).IsReal :=
  isReal_onDay (isReal_firstOf _).month ⟨d.day_mem.1, d.day_le⟩

/-- **A step by months** goes to the same day of the target month, as far as the month reaches, and
on into the month after.  It fails only where the span does not hold the target month. -/
theorem addMonths?_eq_some_iff_onDay :
    d.addMonths? n = some e ↔
      (firstYear ≤ (d.target n.toInt).year ∧ (d.target n.toInt).year ≤ lastYear) ∧
        e.ymd = (d.target n.toInt).onDay d.day := by
  have hmonth : 1 ≤ (d.target n.toInt).month := (isReal_firstOf _).month.1
  rw [addMonths?_eq_some_iff, supported_firstOfMonth_iff,
    ← number_inj (isReal_ymd e) (d.isReal_onDay_target _), number_ymd, number_onDay hmonth]
  rfl

theorem exists_addMonths?_iff :
    (∃ e, d.addMonths? n = some e) ↔
      firstYear ≤ (d.target n.toInt).year ∧ (d.target n.toInt).year ≤ lastYear := by
  simp only [addMonths?_eq_some_iff_onDay]
  constructor
  · rintro ⟨e, hspan, -⟩
    exact hspan
  · intro hspan
    have hreal := d.isReal_onDay_target n.toInt
    obtain ⟨e, he⟩ := exists_ofYmd? ((year_onDay _ d.day).symm ▸ hspan) hreal.month hreal.day
    exact ⟨e, hspan, date?_eq_some_iff.1 he⟩

/-- A count of months that stays inside the span can be turned round. -/
theorem toInt_neg_of_target
    (h : firstYear ≤ (d.target n.toInt).year ∧ (d.target n.toInt).year ≤ lastYear) :
    (-n).toInt = -n.toInt := by
  have hyear := d.year_mem
  have hmonth := d.month_mem
  simp only [target, firstOf, firstYear, lastYear] at h hyear
  rw [Int64.toInt_neg]
  exact Int.bmod_eq_of_le (by omega) (by omega)

/-- **A step back undoes a step** exactly where the target month has the day. -/
theorem addMonths?_neg_eq_some_iff (h : d.addMonths? n = some e) :
    e.addMonths? (-n) = some d ↔ d.day ≤ (d.target n.toInt).monthDays := by
  obtain ⟨hspan, hymd⟩ := addMonths?_eq_some_iff_onDay.1 h
  have hback : ∀ index : Int, e.ymd.index = index + n.toInt →
      e.target (-n).toInt = firstOf index := by
    intro index hindex
    have htarget : e.target (-n).toInt = firstOf (e.ymd.index + -n.toInt) := by
      rw [toInt_neg_of_target hspan]
      rfl
    rw [htarget, hindex, Int.add_neg_cancel_right]
  have hindex : (d.target n.toInt).index = d.ymd.index + n.toInt := index_firstOf _
  rw [addMonths?_eq_some_iff_onDay]
  rcases Nat.lt_or_ge (d.target n.toInt).monthDays d.day with hlt | hle
  · -- the way back ends in the month after that of `d`
    have hstart : e.ymd.index = d.ymd.index + 1 + n.toInt := by
      rw [hymd, index_onDay_of_lt hlt, hindex]
      omega
    rw [hback _ hstart]
    refine iff_of_false ?_ (Nat.not_le.2 hlt)
    rintro ⟨-, hsame⟩
    have hlater := index_le_onDay (firstOf (d.ymd.index + 1)) e.day
    rw [← hsame, index_firstOf] at hlater
    omega
  · have hstart : e.ymd.index = d.ymd.index + n.toInt := by
      rw [hymd, index_onDay_of_le hle, hindex]
    have hday : e.day = d.day := by
      have := congrArg Ymd.day hymd
      rwa [onDay_of_le hle] at this
    rw [hback _ hstart, hday]
    have hyear : (firstOf d.ymd.index).year = d.year := monthIndex_div d.fixed
    exact iff_of_true ⟨hyear ▸ d.year_mem, (onDay_firstOf_index (isReal_ymd d)).symm⟩ hle

/-- **A step by months lands or spills over.**  It lands on the same day of the target month where
that month has it, and otherwise on one of the first three days of the month after, in the same
year.  It fails only where the span does not hold the target month, and a step back undoes it only
where nothing spilt over. -/
theorem addMonths?_lands_or_spills (d : Date) (n : Int64) :
    ((∃ e, d.addMonths? n = some e) ↔
      firstYear ≤ (d.target n.toInt).year ∧ (d.target n.toInt).year ≤ lastYear) ∧
    ∀ e, d.addMonths? n = some e →
      e.year = (d.target n.toInt).year ∧
      (if d.day ≤ (d.target n.toInt).monthDays then
        e.month = (d.target n.toInt).month ∧ e.day = d.day
      else
        e.month = (d.target n.toInt).month + 1 ∧
          e.day = d.day - (d.target n.toInt).monthDays ∧ 1 ≤ e.day ∧ e.day ≤ 3) ∧
      (e.addMonths? (-n) = some d ↔ d.day ≤ (d.target n.toInt).monthDays) := by
  refine ⟨exists_addMonths?_iff, ?_⟩
  intro e he
  obtain ⟨-, hymd⟩ := addMonths?_eq_some_iff_onDay.1 he
  have hyear : e.year = _ := congrArg Ymd.year hymd
  have hmonth : e.month = _ := congrArg Ymd.month hymd
  have hday : e.day = _ := congrArg Ymd.day hymd
  have hshort : 28 ≤ (d.target n.toInt).monthDays := monthLength_pos _ _
  have hlong := d.day_le
  refine ⟨?_, ?_, addMonths?_neg_eq_some_iff he⟩
  · rw [hyear, year_onDay]
  · split
    · rename_i hle
      rw [hmonth, hday, onDay_of_le hle]
      exact ⟨rfl, rfl⟩
    · rename_i hlt
      rw [hmonth, hday, onDay_of_lt (Nat.lt_of_not_le hlt)]
      refine ⟨rfl, rfl, ?_, ?_⟩
      · simp only
        omega
      · simp only
        omega

end Date

end SpokenDate
