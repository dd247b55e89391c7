/-
Days counted one by one.

The calendar can be told without any day number: the day after a day is the next of its month,
or the first of the next month, or the first of the next year.  A step by days is as many of
these single steps, forwards or backwards, and fails only where they leave the span.

* **`Ymd.number_next`**: the day after has the next day number;
* **`Ymd.liesAfter_iff`**: counting one by one agrees with day numbers, in both directions;
* **`addDays?_eq_iterate_next`**: steps by days, counted one by one.

Design notes: `Ymd` knows no span and no words.  A date is one of these days, so a count that
leaves the span comes to a day that is no date.
-/
import Mathlib.Logic.Function.Iterate
import SpokenDate.Proofs.MonthStep

namespace SpokenDate

open Gregorian

/-- A day as it is written, of any year. -/
@[ext]
structure Ymd where
  year : Int
  month : Nat
  day : Nat
  deriving DecidableEq, Repr

/-- The year, month and day that a date reads. -/
def Date.ymd (d : Date) : Ymd := ⟨d.year, d.month, d.day⟩

namespace Ymd

/-- The calendar has this day. -/
structure IsReal (c : Ymd) : Prop where
  month : 1 ≤ c.month ∧ c.month ≤ 12
  day : 1 ≤ c.day ∧ c.day ≤ monthLength c.year c.month

/-- The day after: the next one of the month, or else the first of the next month, and of the next
year after December. -/
def next (c : Ymd) : Ymd :=
  if c.day < monthLength c.year c.month then { c with day := c.day + 1 }
  else if c.month < 12 then { c with month := c.month + 1, day := 1 }
  else { year := c.year + 1, month := 1, day := 1 }

/-- Counting day by day, `e` lies `n` days after `c`, or `c` lies `-n` days after `e` where `n` is
negative. -/
def LiesAfter (e c : Ymd) (n : Int) : Prop :=
  if 0 ≤ n then next^[n.toNat] c = e else next^[(-n).toNat] e = c

/-- The date that is written so, if the span holds it. -/
def date? (c : Ymd) : Option Date := Date.ofYmd? c.year c.month c.day

def number (c : Ymd) : Int := fixed c.year c.month c.day

/-- The month of a day, counted from January of year 0. -/
def index (c : Ymd) : Int := 12 * c.year + c.month - 1

variable {c e : Ymd} {d : Date} {n : Int}

theorem isReal_ymd (d : Date) : d.ymd.IsReal := ⟨d.month_mem, d.day_mem⟩

theorem number_ymd (d : Date) : d.ymd.number = d.fixed := d.fixed_ymd

theorem date?_eq_some_iff : c.date? = some d ↔ d.ymd = c := by
  rw [date?, Date.ofYmd?_eq_some_iff, Date.ymd, Ymd.mk.injEq]

/-- A real day is told by its number. -/
theorem number_inj (hc : c.IsReal) (he : e.IsReal) : c.number = e.number ↔ c = e := by
  constructor
  · intro h
    have hyear := congrArg yearOf h
    have hmonth := congrArg monthOf h
    have hday := congrArg dayOf h
    rw [number, number, yearOf_fixed hc.month hc.day, yearOf_fixed he.month he.day] at hyear
    rw [number, number, monthOf_fixed hc.month hc.day, monthOf_fixed he.month he.day] at hmonth
    rw [number, number, dayOf_fixed hc.month hc.day, dayOf_fixed he.month he.day] at hday
    exact Ymd.ext hyear hmonth hday
  · exact congrArg number

/-! ### Single steps -/

/-- Every month has a first day. -/
theorem isReal_first (year : Int) {month : Nat} (h : 1 ≤ month ∧ month ≤ 12) :
    IsReal ⟨year, month, 1⟩ :=
  ⟨h, Nat.le_refl 1, Nat.le_trans (show 1 ≤ 28 by omega) (monthLength_pos year month)⟩

theorem isReal_next (h : c.IsReal) : c.next.IsReal := by
  obtain ⟨hmonth, hday⟩ := h
  rw [next]
  split
  · rename_i hlast
    exact ⟨hmonth, Nat.le_add_left 1 _, hlast⟩
  · split
    · exact isReal_first _ (by omega)
    · exact isReal_first _ (by omega)

/-- A day lies as far behind the first of its month as its day of the month says. -/
theorem number_eq_firstOfMonth (h : c.IsReal) :
    c.number = firstOfMonth c.index + (c.day - 1) := by
  rw [index, firstOfMonth_ymd h.month]
  simp only [number, fixed]
  omega

/-- A month ends where the next one begins. -/
theorem firstOfMonth_index_succ (h : c.IsReal) :
    firstOfMonth (c.index + 1) = firstOfMonth c.index + monthLength c.year c.month := by
  have hmonth := h.month
  rw [firstOfMonth_succ, index, show (12 * c.year + c.month - 1) / 12 = c.year by omega,
    show ((12 * c.year + c.month - 1) % 12 + 1).toNat = c.month by omega]

/-- The day after is of the same month, or the first of the next. -/
theorem next_cases (h : c.IsReal) :
    (c.next.index = c.index ∧ c.next.day = c.day + 1) ∨
      (c.next.index = c.index + 1 ∧ c.next.day = 1 ∧ c.day = monthLength c.year c.month) := by
  obtain ⟨hmonth, hday⟩ := h
  rw [next]
  split
  · exact .inl ⟨rfl, rfl⟩
  · right
    split
    · exact ⟨by simp only [index]; omega, rfl, by omega⟩
    · exact ⟨by simp only [index]; omega, rfl, by omega⟩

/-- **The day after has the next number**, also over the end of a month or a year. -/
theorem number_next (h : c.IsReal) : c.next.number = c.number + 1 := by
  rw [number_eq_firstOfMonth h, number_eq_firstOfMonth (isReal_next h)]
  rcases next_cases h with ⟨hindex, hday⟩ | ⟨hindex, hday, hlast⟩
  · rw [hindex, hday]
    omega
  · rw [hindex, hday, hlast, firstOfMonth_index_succ h]
    omega

/-! ### Many steps -/

theorem iterate_next (h : c.IsReal) (n : Nat) :
    (next^[n] c).IsReal ∧ (next^[n] c).number = c.number + n := by
  induction n with
  | zero => exact ⟨h, (Int.add_zero _).symm⟩
  | succ n ih =>
    obtain ⟨hreal, hnumber⟩ := ih
    rw [Function.iterate_succ_apply']
    refine ⟨isReal_next hreal, ?_⟩
    rw [number_next hreal, hnumber]
    omega

theorem iterate_next_eq_iff (hc : c.IsReal) (he : e.IsReal) (n : Nat) :
    next^[n] c = e ↔ e.number = c.number + n := by
  obtain ⟨hreal, hnumber⟩ := iterate_next hc n
  rw [← number_inj hreal he, hnumber]
  exact eq_comm

/-- **Counting day by day** agrees with the day numbers. -/
theorem liesAfter_iff (hc : c.IsReal) (he : e.IsReal) :
    e.LiesAfter c n ↔ e.number = c.number + n := by
  rw [LiesAfter]
  split
  · rw [iterate_next_eq_iff hc he]
    omega
  · rw [iterate_next_eq_iff he hc]
    omega

end Ymd

namespace Date

open Ymd

variable {d e : Date} {n : Int64}

theorem addDays?_eq_some_iff_liesAfter :
    d.addDays? n = some e ↔ e.ymd.LiesAfter d.ymd n.toInt := by
  rw [addDays?_eq_some_iff, liesAfter_iff (isReal_ymd d) (isReal_ymd e), number_ymd, number_ymd]

/-- **A step by days goes day by day.**  Forwards it leads to the day that so many days after come
to, if that is a date, and backwards to the one date from which so many come back.  Two steps are
as good as one by their sum. -/
theorem addDays?_eq_iterate_next (d : Date) (n : Int64) :
    (0 ≤ n.toInt → d.addDays? n = (next^[n.toInt.toNat] d.ymd).date?) ∧
    (n.toInt < 0 → ∀ e, d.addDays? n = some e ↔ next^[(-n.toInt).toNat] e.ymd = d.ymd) ∧
    ∀ (m sum : Int64) (e : Date), d.addDays? n = some e → sum.toInt = n.toInt + m.toInt →
      e.addDays? m = d.addDays? sum := by
  refine ⟨?_, ?_, ?_⟩
  · intro hn
    refine Option.ext fun e => ?_
    rw [addDays?_eq_some_iff_liesAfter, date?_eq_some_iff, LiesAfter, if_pos hn]
    exact eq_comm
  · intro hn e
    rw [addDays?_eq_some_iff_liesAfter, LiesAfter, if_neg (Int.not_le.2 hn)]
  · intro m sum e he hsum
    rw [addDays?_eq_some_iff] at he
    rw [addDays?_eq_ofFixed?, addDays?_eq_ofFixed?, he, hsum, Int.add_assoc]

end Date

end SpokenDate
