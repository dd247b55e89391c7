/-
Routes: phrases over the integers.

A route is a day to start from and the legs to go from there, in day numbers that no word
and no span bounds.  Every complete phrase has one, read off its parts without any check.

* **`leads_append_iff`**: a chain of legs is one of its parts after the other, each from a
  supported day to a supported day;
* **`count_bounds_of_leads`**: a leg that stays inside the span has a count far smaller
  than those that a word can hold;
* **`addDays?_iff_leads`**, **`addWeeks?_iff_leads`**, **`addMonths?_iff_leads`**,
  **`addYears?_iff_leads`**: a step leads to a date exactly when its leg does.
-/
import SpokenDate.Phrase.Basic
import SpokenDate.Proofs.MonthStep

namespace SpokenDate

open Gregorian

/-- A move over the day numbers. -/
inductive Leg where
  | days (n : Int)
  /-- To the first of the target month, and on by the day of the month that was left. -/
  | months (n : Int)
  deriving DecidableEq, Repr

namespace Leg

/-- The days that a leg comes to, in order. -/
def stops (start : Int) : Leg → List Int
  | days n => [start + n]
  | months n =>
    [firstOfMonth (monthIndex start + n),
      firstOfMonth (monthIndex start + n) + (dayOf start - 1)]

/-- The day that a leg ends on. -/
def arrival (start : Int) : Leg → Int
  | days n => start + n
  | months n => firstOfMonth (monthIndex start + n) + (dayOf start - 1)

def count : Leg → Int
  | days n => n
  | months n => n

/-- The days that legs come to, one leg after the other. -/
def stopsAlong (start : Int) : List Leg → List Int
  | [] => []
  | leg :: legs => leg.stops start ++ stopsAlong (leg.arrival start) legs

/-- The day that legs end on, one leg after the other. -/
def arrivalAlong (start : Int) (legs : List Leg) : Int := legs.foldl arrival start

end Leg

/-- A day to start from, and where to go from there. -/
structure Route where
  start : Int
  legs : List Leg
  deriving DecidableEq, Repr

/-- The days that a route comes through, its start included. -/
def Route.stops (route : Route) : List Int :=
  route.start :: Leg.stopsAlong route.start route.legs

def Route.arrival (route : Route) : Int := Leg.arrivalAlong route.start route.legs

/-! ### The routes of phrases -/

/-- A count as an integer, where a unit that is absent counts zero. -/
def amount (count : Option Int64) : Int := (count.map Int64.toInt).getD 0

/-- The move by a number of units. -/
def CalendarUnit.leg (n : Int) : CalendarUnit → Leg
  | day => .days n
  | week => .days (7 * n)
  | month => .months n
  | year => .months (12 * n)

/-- Days first, then weeks, months and years, all of them turned round by a negative sign. -/
def Duration.legs (duration : Duration) (sign : Int) : List Leg :=
  [CalendarUnit.day.leg (sign * amount duration.days),
    CalendarUnit.week.leg (sign * amount duration.weeks),
    CalendarUnit.month.leg (sign * amount duration.months),
    CalendarUnit.year.leg (sign * amount duration.years)]

def Offset.legs? : Offset → Option (List Leg)
  | .named duration => if duration = .empty then none else some (duration.legs 1)
  | .counted ⟨some duration, some direction⟩ =>
    some (duration.legs (if direction.toInt < 0 then -1 else 1))
  | .adjacent (some unit) (some step) => some ((Duration.single unit step).legs 1)
  | _ => none

/-- The first of years, months, days and weeks that does not count zero, or nothing. -/
def Shift.legs? : Shift → Option (List Leg)
  | ⟨some duration, some direction⟩ =>
    some <|
      if amount duration.years ≠ 0 then
        [CalendarUnit.year.leg (amount duration.years * direction.toInt)]
      else if amount duration.months ≠ 0 then
        [CalendarUnit.month.leg (amount duration.months * direction.toInt)]
      else if amount duration.days ≠ 0 then
        [CalendarUnit.day.leg (amount duration.days * direction.toInt)]
      else if amount duration.weeks ≠ 0 then
        [CalendarUnit.week.leg (amount duration.weeks * direction.toInt)]
      else []
  | _ => none

/-- Day numbers modulo seven are weekdays, Sunday being 0. -/
def WeekdayPhrase.days? (phrase : WeekdayPhrase) (today : Int) : Option Int :=
  phrase.weekday.map fun weekday =>
    match phrase.distance with
    | none => (weekday.toInt - today % 7) % 7
    | some distance => 7 * distance.toInt + weekday.toInt - today % 7

def CalendarPhrase.route? (phrase : CalendarPhrase) (today : Int) : Option Route := do
  let year ← match phrase.year with
    | none => some (yearOf today)
    | some token => token.value?.map Int32.toInt
  let month ← phrase.month
  let day ← phrase.day
  some ⟨firstOfMonth (12 * year + month.toNat - 1), [.days (day.toNat - 1)]⟩

def Point.start (today : Int) : Point → Int
  | now => today
  | date d => d.fixed

/-- The route of a phrase, unless a part of the phrase is missing or cannot be read. -/
def Phrase.route? (today : Int) : Phrase → Option Route
  | .empty => none
  | .offset o => o.legs?.map fun legs => ⟨today, legs⟩
  | .weekday w => (w.days? today).map fun days => ⟨today, [.days days]⟩
  | .calendar c => c.route? today
  | .fromPoint shift point => do
    let point ← point
    let legs ← shift.legs?
    some ⟨point.start today, legs⟩
  | .fromPhrase shift base => do
    let route ← base.route? today
    let legs ← shift.legs?
    some ⟨route.start, route.legs ++ legs⟩

/-! ### Legs inside the span -/

/-- The legs lead from `start` to `finish` without leaving the span. -/
def Leads (legs : List Leg) (start finish : Int) : Prop :=
  (∀ n ∈ Leg.stopsAlong start legs, Supported n) ∧ Leg.arrivalAlong start legs = finish

section Leads

variable {leg : Leg} {legs more : List Leg} {start finish : Int} {d e : Date} {n : Int64}

theorem leads_nil : Leads [] start finish ↔ start = finish := by
  simp [Leads, Leg.stopsAlong, Leg.arrivalAlong]

theorem leads_cons :
    Leads (leg :: legs) start finish ↔
      (∀ n ∈ leg.stops start, Supported n) ∧ Leads legs (leg.arrival start) finish := by
  simp only [Leads, Leg.stopsAlong, Leg.arrivalAlong, List.mem_append, List.foldl_cons]
  constructor
  · rintro ⟨hstops, harrival⟩
    exact ⟨fun n hn => hstops n (.inl hn), fun n hn => hstops n (.inr hn), harrival⟩
  · rintro ⟨hleg, hstops, harrival⟩
    exact ⟨fun n hn => hn.elim (hleg n) (hstops n), harrival⟩

theorem Leg.arrival_mem_stops (leg : Leg) (start : Int) : leg.arrival start ∈ leg.stops start := by
  cases leg <;> simp [arrival, stops]

/-- Legs that start inside the span and do not leave it end inside it. -/
theorem supported_of_leads (hstart : Supported start) (h : Leads legs start finish) :
    Supported finish := by
  induction legs generalizing start with
  | nil => exact leads_nil.1 h ▸ hstart
  | cons leg legs ih =>
    obtain ⟨hleg, h⟩ := leads_cons.1 h
    exact ih (hleg _ (leg.arrival_mem_stops start)) h

theorem leads_append :
    Leads (legs ++ more) start finish ↔
      ∃ middle, Leads legs start middle ∧ Leads more middle finish := by
  induction legs generalizing start with
  | nil => simp [leads_nil]
  | cons leg legs ih =>
    simp only [List.cons_append, leads_cons, ih, and_assoc, exists_and_left]

/-- Legs one after the other meet in a date. -/
theorem leads_append_iff :
    Leads (legs ++ more) d.fixed finish ↔
      ∃ e : Date, Leads legs d.fixed e.fixed ∧ Leads more e.fixed finish := by
  rw [leads_append]
  constructor
  · rintro ⟨middle, hlegs, hmore⟩
    have hspan := supported_of_leads d.supported hlegs
    exact ⟨⟨middle, hspan.1, hspan.2⟩, hlegs, hmore⟩
  · rintro ⟨e, hlegs, hmore⟩
    exact ⟨e.fixed, hlegs, hmore⟩

theorem leads_days {days : Int} :
    Leads [.days days] start e.fixed ↔ e.fixed = start + days := by
  rw [leads_cons, leads_nil]
  simp only [Leg.stops, Leg.arrival, List.forall_mem_singleton]
  constructor
  · rintro ⟨-, h⟩
    exact h.symm
  · intro h
    exact ⟨h ▸ e.supported, h.symm⟩

theorem leads_months {months : Int} :
    Leads [.months months] start e.fixed ↔
      Supported (firstOfMonth (monthIndex start + months)) ∧
        e.fixed = firstOfMonth (monthIndex start + months) + (dayOf start - 1) := by
  rw [leads_cons, leads_nil]
  simp only [Leg.stops, Leg.arrival, List.forall_mem_cons, List.not_mem_nil, false_implies,
    implies_true, and_true]
  constructor
  · rintro ⟨⟨hfirst, -⟩, h⟩
    exact ⟨hfirst, h.symm⟩
  · rintro ⟨hfirst, h⟩
    exact ⟨⟨hfirst, h ▸ e.supported⟩, h.symm⟩

/-- A leg that stays inside the span has a small count. -/
theorem count_bounds (hstart : Supported start) (h : ∀ n ∈ leg.stops start, Supported n) :
    -2 ^ 40 < leg.count ∧ leg.count < 2 ^ 40 := by
  obtain ⟨hfirst, hlast⟩ := Date.span_eq
  cases leg with
  | days n =>
    have hstop := h _ (List.mem_singleton_self _)
    simp only [Supported, Leg.count] at hstart hstop ⊢
    omega
  | months n =>
    -- both years lie in the span, which is some 2 ^ 20 years long
    have hyear := Date.mem_span_iff.1 hstart
    have htarget := supported_firstOfMonth_iff.1 (h _ (List.mem_cons_self ..))
    have := monthOf_mem start
    simp only [firstYear, lastYear, monthIndex, Leg.count] at hyear htarget ⊢
    omega

theorem count_bounds_of_leads (hstart : Supported start) (h : Leads legs start finish) :
    ∀ leg ∈ legs, -2 ^ 40 < leg.count ∧ leg.count < 2 ^ 40 := by
  induction legs generalizing start with
  | nil => simp
  | cons first legs ih =>
    obtain ⟨hfirst, h⟩ := leads_cons.1 h
    intro leg hleg
    -- a later leg starts on a day of the span
    rcases List.mem_cons.1 hleg with rfl | hleg
    · exact count_bounds hstart hfirst
    · exact ih (hfirst _ (first.arrival_mem_stops start)) h leg hleg

/-! ### Steps and their legs -/

theorem addDays?_iff_leads :
    d.addDays? n = some e ↔ Leads [CalendarUnit.day.leg n.toInt] d.fixed e.fixed := by
  rw [Date.addDays?_eq_some_iff, CalendarUnit.leg, leads_days]

theorem addWeeks?_iff_leads :
    d.addWeeks? n = some e ↔ Leads [CalendarUnit.week.leg n.toInt] d.fixed e.fixed := by
  rw [Date.addWeeks?_eq_some_iff, CalendarUnit.leg, leads_days]

theorem addMonths?_iff_leads :
    d.addMonths? n = some e ↔ Leads [CalendarUnit.month.leg n.toInt] d.fixed e.fixed := by
  rw [Date.addMonths?_eq_some_iff, CalendarUnit.leg, leads_months]
  rfl

theorem addYears?_iff_leads :
    d.addYears? n = some e ↔ Leads [CalendarUnit.year.leg n.toInt] d.fixed e.fixed := by
  rw [Date.addYears?_eq_some_iff, CalendarUnit.leg, leads_months]
  rfl

/-- A leg of no days goes nowhere. -/
theorem leads_days_zero : Leads [.days 0] d.fixed e.fixed ↔ d = e := by
  rw [leads_days, Int.add_zero, Date.fixed_inj]
  exact eq_comm

/-- A leg of no months goes back to the first of the month and returns. -/
theorem leads_months_zero : Leads [.months 0] d.fixed e.fixed ↔ d = e := by
  rw [leads_months, Int.add_zero, firstOfMonth_monthIndex, ← Date.fixed_inj]
  constructor
  · rintro ⟨-, h⟩
    omega
  · intro h
    refine ⟨?_, by omega⟩
    rw [← firstOfMonth_monthIndex, supported_firstOfMonth_iff, monthIndex_div]
    exact d.year_mem

theorem leads_leg_zero (unit : CalendarUnit) :
    Leads [unit.leg 0] d.fixed e.fixed ↔ d = e := by
  cases unit with
  | day => exact leads_days_zero
  | week => exact leads_days_zero
  | month => exact leads_months_zero
  | year => exact leads_months_zero

theorem leg_count_bounds {unit : CalendarUnit} {n : Int}
    (h : -2 ^ 40 < (unit.leg n).count ∧ (unit.leg n).count < 2 ^ 40) :
    -2 ^ 40 < n ∧ n < 2 ^ 40 := by
  cases unit <;> simp only [CalendarUnit.leg, Leg.count] at h <;> omega

/-- A number of units that does not lead out of the span fits into a word. -/
theorem number_bounds_of_leads {unit : CalendarUnit} {n : Int}
    (h : Leads [unit.leg n] d.fixed finish) : -2 ^ 40 < n ∧ n < 2 ^ 40 :=
  leg_count_bounds (count_bounds_of_leads d.supported h _ (List.mem_singleton_self _))

end Leads

end SpokenDate
