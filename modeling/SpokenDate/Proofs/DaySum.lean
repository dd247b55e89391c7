/-
Chains of shifts by days and weeks.

A shift that counts neither months nor years moves the day number by a fixed amount, from
wherever it starts.  So a chain of such shifts moves it by the sum of their amounts, and neither
their order nor whether they are asked for at once or one after the other makes a difference.

* **`DayShift`**: a shift that counts neither months nor years, and the days that it moves by;
* **`DayShift.leads_of_from?`**, **`DayShift.from?_iff_leads`**: one shift;
* **`leads_of_follow?`**, **`follow?_iff_leads`**: shifts one after the other;
* **`follow?_eq_some_iff_walk`**: the same shifts asked for one by one, each from the date before;
* **`resolve?_chain_adds_up`**: chains.
-/
import Mathlib.Algebra.BigOperators.Group.List.Basic
import Mathlib.Algebra.Ring.Int.Defs
import SpokenDate.Proofs.Chain
import SpokenDate.Proofs.Run

namespace SpokenDate

variable {d e start today : Date}

/-- A complete shift that counts neither months nor years. -/
structure DayShift where
  duration : Duration
  direction : Int64
  months : amount duration.months = 0
  years : amount duration.years = 0
  deriving DecidableEq

namespace DayShift

def toShift (shift : DayShift) : Shift := ⟨some shift.duration, some shift.direction⟩

/-- The days that a shift moves by.  Weeks only count where days do not. -/
def days (shift : DayShift) : Int :=
  if amount shift.duration.days ≠ 0 then amount shift.duration.days * shift.direction.toInt
  else 7 * amount shift.duration.weeks * shift.direction.toInt

/-- The leg of the days that a shift moves by. -/
def leg (shift : DayShift) : Leg := .days shift.days

variable {shift : DayShift} {shifts : List DayShift}

/-- The legs of a shift are those of its days. -/
theorem leads_legs?_iff {legs : List Leg} (h : shift.toShift.legs? = some legs) :
    Leads legs d.fixed e.fixed ↔ Leads [shift.leg] d.fixed e.fixed := by
  rw [toShift, Shift.legs?, Option.some_inj, if_neg (not_not.2 shift.years),
    if_neg (not_not.2 shift.months)] at h
  rw [leg, leads_days, days, ← h]
  by_cases hdays : amount shift.duration.days ≠ 0
  · rw [if_pos hdays, if_pos hdays, CalendarUnit.leg, leads_days]
  · rw [if_neg hdays, if_neg hdays]
    by_cases hweeks : amount shift.duration.weeks ≠ 0
    · rw [if_pos hweeks, CalendarUnit.leg, leads_days, Int.mul_assoc]
    · rw [if_neg hweeks, leads_nil, not_not.1 hweeks, Int.mul_zero, Int.zero_mul, Int.add_zero]
      exact eq_comm

theorem leads_of_from? (h : shift.toShift.from? d = some e) :
    Leads [shift.leg] d.fixed e.fixed := by
  obtain ⟨legs, hlegs, hleads⟩ := Shift.leads_of_from? h
  exact (leads_legs?_iff hlegs).1 hleads

theorem from?_iff_leads (h : shift.direction ≠ 0) :
    shift.toShift.from? d = some e ↔ Leads [shift.leg] d.fixed e.fixed := by
  have hdirection : shift.toShift.direction ≠ some 0 := fun hzero => h (Option.some_inj.1 hzero)
  constructor
  · exact leads_of_from?
  · intro hleads
    exact (Shift.from?_iff_leads hdirection).2 ⟨_, rfl, (leads_legs?_iff rfl).2 hleads⟩

end DayShift

/-! ### Shifts one after the other -/

/-- The date that shifts lead to, each from where the one before it arrived. -/
def Shift.follow? (shifts : List Shift) (start : Date) : Option Date :=
  shifts.foldlM (fun date shift => shift.from? date) start

theorem Shift.follow?_cons (shift : Shift) (shifts : List Shift) (start : Date) :
    follow? (shift :: shifts) start = (shift.from? start).bind (follow? shifts) := rfl

section Follow

variable {shifts : List DayShift}

/-- Shifts that come to a date follow their legs, whatever their directions. -/
theorem leads_of_follow? (h : Shift.follow? (shifts.map DayShift.toShift) start = some d) :
    Leads (shifts.map DayShift.leg) start.fixed d.fixed := by
  induction shifts generalizing start with
  | nil => exact leads_nil.2 (congrArg Date.fixed (Option.some_inj.1 h))
  | cons shift shifts ih =>
    obtain ⟨e, hshift, hrest⟩ := Option.bind_eq_some_iff.1 h
    exact leads_append_iff.2 ⟨e, DayShift.leads_of_from? hshift, ih hrest⟩

/-- Unless a direction is zero, shifts fail only where a day in between is not supported. -/
theorem follow?_iff_leads (h : ∀ shift ∈ shifts, shift.direction ≠ 0) :
    Shift.follow? (shifts.map DayShift.toShift) start = some d ↔
      Leads (shifts.map DayShift.leg) start.fixed d.fixed := by
  induction shifts generalizing start with
  | nil => exact Option.some_inj.trans (Date.fixed_inj.symm.trans leads_nil.symm)
  | cons shift shifts ih =>
    obtain ⟨hshift, hshifts⟩ := List.forall_mem_cons.1 h
    rw [List.map_cons, Shift.follow?_cons, Option.bind_eq_some_iff, List.map_cons,
      ← List.singleton_append, leads_append_iff]
    simp only [DayShift.from?_iff_leads hshift, ih hshifts]

/-- Legs of days add up. -/
theorem arrivalAlong_legs (shifts : List DayShift) (start : Int) :
    Leg.arrivalAlong start (shifts.map DayShift.leg) =
      start + (shifts.map DayShift.days).sum := by
  induction shifts generalizing start with
  | nil => exact (Int.add_zero start).symm
  | cons shift shifts ih =>
    rw [List.map_cons (f := DayShift.days), List.sum_cons, ← Int.add_assoc]
    exact ih (start + shift.days)

/-- **Shifts by days add up**, where they come to a date. -/
theorem fixed_of_follow? (h : Shift.follow? (shifts.map DayShift.toShift) start = some d) :
    d.fixed = start.fixed + (shifts.map DayShift.days).sum := by
  rw [← arrivalAlong_legs, (leads_of_follow? h).2]

end Follow

/-! ### The same shifts one by one -/

theorem Date.atMidnight_inj : d.atMidnight = e.atMidnight ↔ d = e := by
  constructor
  · intro h
    have hdate := congrArg DateTime.date? h
    rw [DateTime.date?_atMidnight, DateTime.date?_atMidnight] at hdate
    exact Option.some_inj.1 hdate
  · exact congrArg Date.atMidnight

/-- All answers are dates and the last one is `d`, which is where `start` already was if there
are no answers. -/
def Arrives (start d : Date) (answers : List Answer) : Prop :=
  (∀ answer ∈ answers, ∃ found, answer = .ok (some found)) ∧
    answers.getLast?.getD (.ok (some start.atMidnight)) = .ok (some d.atMidnight)

theorem arrives_nil : Arrives start d [] ↔ start = d := by
  simp [Arrives, Date.atMidnight_inj]

theorem arrives_cons {answer : Option Date} {answers : List Answer} :
    Arrives start d (.ok (answer.map Date.atMidnight) :: answers) ↔
      ∃ e, answer = some e ∧ Arrives e d answers := by
  cases answer with
  | none => simp [Arrives]
  | some e => simp [Arrives, List.getLast?_cons]

section Walk

variable {options : Options} {fields : Fields} {calls : List Fields}

/-- The fields ask for a shift from a point. -/
def AsksFor (options : Options) (point : Point) (fields : Fields) (shift : Shift) : Prop :=
  Phrase.ofFields fields options.maxDepth = .ok (.fromPoint shift (some point))

/-- What is found for the first shift is today for the others. -/
theorem arrives_walk_cons {shift : Shift} {point : Point}
    (h : AsksFor options point fields shift) :
    Arrives start d (walk options today (fields :: calls)) ↔
      ∃ e, shift.from? (point.resolve today) = some e ∧ Arrives e d (walk options e calls) := by
  have hfind : findDate fields today options = .ok (shift.from? (point.resolve today)) := by
    rw [findDate, h]
    rfl
  have hwalk : walk options today (fields :: calls) =
      .ok ((shift.from? (point.resolve today)).map Date.atMidnight) ::
        walk options ((shift.from? (point.resolve today)).getD today) calls := by
    rw [walk_cons, resolveWith, hfind]
    rfl
  rw [hwalk, arrives_cons]
  refine exists_congr fun e => and_congr_right fun he => ?_
  rw [he, Option.getD_some]

/-- **One by one the same comes out.** -/
theorem follow?_eq_some_iff_walk {shifts : List Shift}
    (h : List.Forall₂ (AsksFor options .now) calls shifts) :
    Shift.follow? shifts today = some d ↔ Arrives today d (walk options today calls) := by
  -- by induction on the calls, where today is any day
  induction h generalizing today with
  | nil => exact Option.some_inj.trans arrives_nil.symm
  | cons hcall _ ih =>
    rw [Shift.follow?_cons, Option.bind_eq_some_iff, arrives_walk_cons hcall]
    simp only [ih, Point.resolve]

end Walk

/-! ### Chains -/

namespace Phrase

/-- Shifts around a point, the first one being the innermost. -/
def chain (point : Point) (first : Shift) (later : List Shift) : Phrase :=
  around later.reverse (fromPoint first (some point))

theorem resolve?_around_reverse (shifts : List Shift) (inner : Phrase) :
    (around shifts.reverse inner).resolve? today =
      (inner.resolve? today).bind (Shift.follow? shifts) := by
  induction shifts generalizing inner with
  | nil => exact (Option.bind_fun_some (inner.resolve? today)).symm
  | cons shift shifts ih =>
    have hinner : around (shift :: shifts).reverse inner =
        around shifts.reverse (fromPhrase shift inner) := by
      rw [around, List.reverse_cons, List.foldr_append]
      rfl
    rw [hinner, ih, resolve?_fromPhrase, Option.bind_assoc]
    rfl

/-- A chain follows its shifts from the inside to the outside. -/
theorem resolve?_chain (point : Point) (first : Shift) (later : List Shift) :
    (chain point first later).resolve? today =
      Shift.follow? (first :: later) (point.resolve today) :=
  resolve?_around_reverse later _

theorem resolve?_chain_days (point : Point) (first : DayShift) (later : List DayShift) :
    (chain point first.toShift (later.map DayShift.toShift)).resolve? today =
      Shift.follow? ((first :: later).map DayShift.toShift) (point.resolve today) :=
  resolve?_chain point first.toShift (later.map DayShift.toShift)

/-- **Shifts by days add up.**  A chain of shifts by days and weeks, around a date or today, comes
to the sum of their days, whenever it comes to a date.  So the order of the shifts does not matter,
and neither does asking for them one by one, each from the date before.  Unless a direction is
zero, nothing but a day outside the span can be in the way. -/
theorem resolve?_chain_adds_up (point : Point) (first : DayShift) (later : List DayShift)
    (today : Date) :
    (∀ d, (chain point first.toShift (later.map DayShift.toShift)).resolve? today = some d →
      d.fixed = (point.resolve today).fixed + ((first :: later).map DayShift.days).sum) ∧
    (∀ first' later', (first' :: later').Perm (first :: later) → ∀ d d',
      (chain point first.toShift (later.map DayShift.toShift)).resolve? today = some d →
      (chain point first'.toShift (later'.map DayShift.toShift)).resolve? today = some d' →
      d' = d) ∧
    (∀ options call calls, AsksFor options point call first.toShift →
      List.Forall₂ (AsksFor options .now) calls (later.map DayShift.toShift) → ∀ d,
      ((chain point first.toShift (later.map DayShift.toShift)).resolve? today = some d ↔
        (∀ answer ∈ walk options today (call :: calls), ∃ found, answer = .ok (some found)) ∧
          (walk options today (call :: calls)).getLast? = some (.ok (some d.atMidnight)))) ∧
    ((∀ shift ∈ first :: later, shift.direction ≠ 0) → ∀ d,
      ((chain point first.toShift (later.map DayShift.toShift)).resolve? today = some d ↔
        Leads ((first :: later).map DayShift.leg) (point.resolve today).fixed d.fixed)) := by
  have hsum : ∀ (first : DayShift) (later : List DayShift) (d : Date),
      (chain point first.toShift (later.map DayShift.toShift)).resolve? today = some d →
      d.fixed = (point.resolve today).fixed + ((first :: later).map DayShift.days).sum := by
    intro first later d h
    rw [resolve?_chain_days] at h
    exact fixed_of_follow? h
  refine ⟨hsum first later, ?_, ?_, ?_⟩
  · intro first' later' hperm d d' h h'
    refine Date.ext ?_
    rw [hsum first' later' d' h', hsum first later d h, (hperm.map DayShift.days).sum_eq]
  · intro options call calls hcall hcalls d
    have hwalk : Shift.follow? (first.toShift :: later.map DayShift.toShift)
        (point.resolve today) = some d ↔ Arrives today d (walk options today (call :: calls)) := by
      rw [Shift.follow?_cons, Option.bind_eq_some_iff, arrives_walk_cons hcall]
      simp only [follow?_eq_some_iff_walk hcalls]
    rw [resolve?_chain, hwalk, Arrives, walk_cons, List.getLast?_cons, Option.getD_some,
      Option.some_inj]
  · intro h d
    rw [resolve?_chain_days]
    exact follow?_iff_leads h

/-- Three days after. -/
def threeDaysAfter : DayShift := ⟨⟨some 3, none, none, some 0⟩, 1, rfl, rfl⟩

/-- A week before, with a count of zero days. -/
def weekBefore : DayShift := ⟨⟨some 0, some 1, none, none⟩, -1, rfl, rfl⟩

/-- Twice two days before.  The five weeks do not count beside the days. -/
def twiceTwoDaysBefore : DayShift := ⟨⟨some 2, some 5, some 0, none⟩, -2, rfl, rfl⟩

/-- What asks for a shift from today. -/
def fromNow (duration : List (String × Value)) (direction : Int64) : Fields :=
  .ofList [("date", .text "now"), ("duration", .map (.ofList duration)),
    ("direction", .integer direction)]

/-- 14 April 2021. -/
def midApril : Date := ⟨737894, by decide, by decide⟩

/-- 6 April 2021. -/
def earlyApril : Date := ⟨737886, by decide, by decide⟩

/-- The three shifts come to 6 April 2021 from 14 April, in either order and one by one. -/
theorem resolve?_chain_adds_up_midApril :
    (chain .now threeDaysAfter.toShift [weekBefore.toShift, twiceTwoDaysBefore.toShift]).resolve?
        midApril = some earlyApril ∧
      earlyApril.fixed = midApril.fixed + (3 - 7 - 4) ∧
      [twiceTwoDaysBefore, threeDaysAfter, weekBefore].Perm
        [threeDaysAfter, weekBefore, twiceTwoDaysBefore] ∧
      (∀ d, (chain .now twiceTwoDaysBefore.toShift
        [threeDaysAfter.toShift, weekBefore.toShift]).resolve? midApril = some d →
        d = earlyApril) ∧
      (walk {} midApril [fromNow [("days", .integer 3), ("years", .integer 0)] 1,
        fromNow [("days", .integer 0), ("weeks", .integer 1)] (-1),
        fromNow [("days", .integer 2), ("weeks", .integer 5), ("months", .integer 0)]
          (-2)]).getLast? = some (.ok (some ⟨2021, 4, 6, 0, 0, 0⟩)) ∧
      Leads [.days 3, .days (-7), .days (-4)] midApril.fixed earlyApril.fixed := by
  obtain ⟨hsum, hperm, hwalk, hleads⟩ := resolve?_chain_adds_up .now threeDaysAfter
    [weekBefore, twiceTwoDaysBefore] midApril
  have hchain : (chain .now threeDaysAfter.toShift
      [weekBefore.toShift, twiceTwoDaysBefore.toShift]).resolve? midApril = some earlyApril := rfl
  have horder : [twiceTwoDaysBefore, threeDaysAfter, weekBefore].Perm
      [threeDaysAfter, weekBefore, twiceTwoDaysBefore] := by decide
  have hfirst : AsksFor {} .now (fromNow [("days", .integer 3), ("years", .integer 0)] 1)
      threeDaysAfter.toShift := rfl
  have hsecond : AsksFor {} .now (fromNow [("days", .integer 0), ("weeks", .integer 1)] (-1))
      weekBefore.toShift := rfl
  have hthird : AsksFor {} .now
      (fromNow [("days", .integer 2), ("weeks", .integer 5), ("months", .integer 0)] (-2))
      twiceTwoDaysBefore.toShift := rfl
  have hdirection : ∀ shift ∈ [threeDaysAfter, weekBefore, twiceTwoDaysBefore],
      shift.direction ≠ 0 := by decide
  exact ⟨hchain, hsum _ hchain, horder, fun d => hperm _ _ horder _ d hchain,
    ((hwalk {} _ _ hfirst (.cons hsecond (.cons hthird .nil)) _).1 hchain).2,
    (hleads hdirection _).1 hchain⟩

end Phrase

end SpokenDate
