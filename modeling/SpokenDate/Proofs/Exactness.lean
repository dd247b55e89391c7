/-
Resolution is exact.

Resolving multiplies, negates and adds words, and gives up where a word is too small.  It
never has to: a count that no word holds leads out of the span anyway.  So a phrase
resolves to a date exactly when its route, taken over the integers, ends on that date and
comes through supported days only.

* **`addTo?_iff_leads`**: adding a duration follows its legs;
* **`resolve?_iff_leads`** of offsets, weekday phrases and calendar phrases, and
  **`from?_iff_leads`** of shifts: the same for the parts of a phrase;
* **`resolve?_eq_some_iff_route`**: the same for every phrase.

Design notes: the proofs from a route to words all go by `count_bounds_of_leads`, so no
proof looks at the ends of the span.
-/
import SpokenDate.Proofs.Route

namespace SpokenDate

open Gregorian

variable {d e today : Date} {finish : Int}

theorem Checked.exists_mul? {a b : Int64}
    (h : -2 ^ 40 < a.toInt * b.toInt ∧ a.toInt * b.toInt < 2 ^ 40) :
    ∃ c, Checked.mul? a b = some c ∧ c.toInt = a.toInt * b.toInt :=
  Checked.exists_int64? (by omega)

/-! ### Durations -/

/-- A unit that is absent takes no step, and a leg of no length leads nowhere else. -/
theorem step?_iff_leads {step : Date → Int64 → Option Date} (unit : CalendarUnit)
    (hstep : ∀ {d e n}, step d n = some e ↔ Leads [unit.leg n.toInt] d.fixed e.fixed)
    {count : Option Int64} :
    Duration.step? step d count = some e ↔ Leads [unit.leg (amount count)] d.fixed e.fixed := by
  cases count with
  | none =>
    rw [Duration.step?, Option.some_inj]
    exact (leads_leg_zero unit).symm
  | some n => exact hstep

variable {duration : Duration}

/-- **Adding a duration** follows its legs. -/
theorem addTo?_iff_leads :
    duration.addTo? d = some e ↔ Leads (duration.legs 1) d.fixed e.fixed := by
  have hlegs : duration.legs 1 = [CalendarUnit.day.leg (amount duration.days)] ++
      ([CalendarUnit.week.leg (amount duration.weeks)] ++
        ([CalendarUnit.month.leg (amount duration.months)] ++
          [CalendarUnit.year.leg (amount duration.years)])) := by
    simp only [Duration.legs, Int.one_mul, List.cons_append, List.nil_append]
  rw [hlegs, Duration.addTo?]
  simp only [leads_append_iff, ← step?_iff_leads .day addDays?_iff_leads,
    ← step?_iff_leads .week addWeeks?_iff_leads, ← step?_iff_leads .month addMonths?_iff_leads,
    ← step?_iff_leads .year addYears?_iff_leads]
  simp only [bind, Option.bind_eq_some_iff]

/-! ### Turning a duration round -/

theorem amount_of_mapM {count scaled : Option Int64}
    (h : count.mapM (Checked.mul? · (-1)) = some scaled) :
    amount scaled = -1 * amount count := by
  cases count with
  | none =>
    cases h
    exact (Int.mul_zero _).symm
  | some n =>
    rw [Option.mapM_some, Option.map_eq_map, Option.map_eq_some_iff] at h
    obtain ⟨product, hproduct, rfl⟩ := h
    rw [Checked.mul?_eq_some_iff, show (-1 : Int64).toInt = -1 from rfl] at hproduct
    simp only [amount, Option.map_some, Option.getD_some, hproduct, Int.mul_comm]

theorem exists_mapM {count : Option Int64}
    (h : -2 ^ 40 < -1 * amount count ∧ -1 * amount count < 2 ^ 40) :
    ∃ scaled, count.mapM (Checked.mul? · (-1)) = some scaled := by
  cases count with
  | none => exact ⟨none, rfl⟩
  | some n =>
    simp only [amount, Option.map_some, Option.getD_some, Int.mul_comm (-1)] at h
    obtain ⟨product, hproduct, -⟩ := Checked.exists_mul? (b := -1) h
    refine ⟨some product, ?_⟩
    rw [Option.mapM_some, hproduct]
    rfl

/-- Scaling turns all legs round. -/
theorem legs_of_scale? {scaled : Duration} (h : duration.scale? (-1) = some scaled) :
    scaled.legs 1 = duration.legs (-1) := by
  obtain ⟨days, hdays, h⟩ := Option.bind_eq_some_iff.1 h
  obtain ⟨weeks, hweeks, h⟩ := Option.bind_eq_some_iff.1 h
  obtain ⟨months, hmonths, h⟩ := Option.bind_eq_some_iff.1 h
  obtain ⟨years, hyears, h⟩ := Option.bind_eq_some_iff.1 h
  cases h
  simp only [Duration.legs, amount_of_mapM hdays, amount_of_mapM hweeks,
    amount_of_mapM hmonths, amount_of_mapM hyears, Int.one_mul]

/-- A duration that cannot be scaled leads nowhere when it is turned round. -/
theorem exists_scale? (h : Leads (duration.legs (-1)) d.fixed finish) :
    ∃ scaled, duration.scale? (-1) = some scaled := by
  have hbounds := count_bounds_of_leads d.supported h
  simp only [Duration.legs, List.forall_mem_cons, List.not_mem_nil, false_implies,
    implies_true, and_true] at hbounds
  obtain ⟨hdays, hweeks, hmonths, hyears⟩ := hbounds
  obtain ⟨days, hdays⟩ := exists_mapM (leg_count_bounds hdays)
  obtain ⟨weeks, hweeks⟩ := exists_mapM (leg_count_bounds hweeks)
  obtain ⟨months, hmonths⟩ := exists_mapM (leg_count_bounds hmonths)
  obtain ⟨years, hyears⟩ := exists_mapM (leg_count_bounds hyears)
  refine ⟨⟨days, weeks, months, years⟩, ?_⟩
  rw [Duration.scale?, hdays, hweeks, hmonths, hyears]
  rfl

/-! ### The parts of a phrase -/

theorem isEmpty_iff_eq_empty : duration.isEmpty = true ↔ duration = .empty := by
  obtain ⟨days, weeks, months, years⟩ := duration
  simp [Duration.isEmpty, Duration.counts, Duration.empty]

theorem Offset.resolve?_iff_leads {offset : Offset} :
    offset.resolve? today = some d ↔
      ∃ legs, offset.legs? = some legs ∧ Leads legs today.fixed d.fixed := by
  have key : ∀ duration : Duration, offset.duration? = some duration →
      offset.legs? = some (duration.legs 1) →
      (offset.resolve? today = some d ↔
        ∃ legs, offset.legs? = some legs ∧ Leads legs today.fixed d.fixed) := by
    intro duration hduration hlegs
    simp only [resolve?, hduration, hlegs, bind, Option.bind_some, addTo?_iff_leads,
      Option.some_inj, exists_eq_left']
  match offset with
  | named duration =>
    by_cases h : duration = .empty
    · simp [resolve?, duration?, legs?, h, isEmpty_iff_eq_empty.2]
    · have hempty : ¬duration.isEmpty = true := fun he => h (isEmpty_iff_eq_empty.1 he)
      exact key duration (if_neg hempty) (if_neg h)
  | counted ⟨some duration, some direction⟩ =>
    by_cases h : direction.toInt < 0
    · have hlegs : (counted ⟨some duration, some direction⟩).legs? =
          some (duration.legs (-1)) := by rw [legs?, if_pos h]
      have hduration : (counted ⟨some duration, some direction⟩).duration? =
          duration.scale? (-1) := if_pos h
      cases hscale : duration.scale? (-1) with
      | some scaled =>
        exact key scaled (hduration.trans hscale) (hlegs.trans (by rw [legs_of_scale? hscale]))
      | none =>
        -- a unit that cannot be negated would lead out of the span
        rw [resolve?, hduration, hscale, hlegs]
        simp only [bind, Option.bind_none, reduceCtorEq, Option.some_inj, exists_eq_left',
          false_iff]
        intro hleads
        obtain ⟨scaled, h⟩ := exists_scale? hleads
        rw [hscale] at h
        cases h
    · exact key duration (if_neg h) (by rw [legs?, if_neg h])
  | counted ⟨none, direction⟩ => simp [resolve?, duration?, legs?]
  | counted ⟨some duration, none⟩ => simp [resolve?, duration?, legs?]
  | adjacent (some unit) (some step) => exact key (.single unit step) rfl rfl
  | adjacent none step => simp [resolve?, duration?, legs?]
  | adjacent (some unit) none => simp [resolve?, duration?, legs?]

/-! ### Shifts -/

/-- A count is looked at where it is not zero. -/
theorem filter_ne_zero_cases (count : Option Int64) :
    (amount count = 0 ∧ count.filter (· ≠ 0) = none) ∨
      ∃ n : Int64, amount count = n.toInt ∧ amount count ≠ 0 ∧
        count.filter (· ≠ 0) = some n := by
  cases count with
  | none => exact .inl ⟨rfl, rfl⟩
  | some n =>
    by_cases h : n = 0
    · subst h
      exact .inl ⟨rfl, rfl⟩
    · refine .inr ⟨n, rfl, ?_, by simp [h]⟩
      intro hzero
      exact h (Int64.toInt_inj.1 hzero)

/-- The leading unit and its count, and what the route makes of them. -/
theorem legs?_eq_of_leading? (duration : Duration) (direction : Int64) :
    (duration.leading? = none ∧ Shift.legs? ⟨some duration, some direction⟩ = some []) ∨
      ∃ unit n, duration.leading? = some (unit, n) ∧
        Shift.legs? ⟨some duration, some direction⟩ =
          some [unit.leg (n.toInt * direction.toInt)] := by
  simp only [Duration.leading?, Shift.legs?]
  -- in the order in which the units are looked at, down to the first that counts
  rcases filter_ne_zero_cases duration.years with ⟨hy, fy⟩ | ⟨n, hn, hy, fy⟩
  · rcases filter_ne_zero_cases duration.months with ⟨hm, fm⟩ | ⟨n, hn, hm, fm⟩
    · rcases filter_ne_zero_cases duration.days with ⟨hd, fd⟩ | ⟨n, hn, hd, fd⟩
      · rcases filter_ne_zero_cases duration.weeks with ⟨hw, fw⟩ | ⟨n, hn, hw, fw⟩
        · left
          simp only [List.findSome?, fy, fm, fd, fw, Option.map_none, hy, hm, hd, hw, ne_eq,
            not_true_eq_false, if_false, and_self]
        · refine .inr ⟨.week, n, ?_, ?_⟩
          · simp only [List.findSome?, fy, fm, fd, fw, Option.map_none, Option.map_some]
          · simp only [hy, hm, hd, hw, ← hn, ne_eq, not_true_eq_false, not_false_eq_true, if_true,
              if_false]
      · refine .inr ⟨.day, n, ?_, ?_⟩
        · simp only [List.findSome?, fy, fm, fd, Option.map_none, Option.map_some]
        · simp only [hy, hm, hd, ← hn, ne_eq, not_true_eq_false, not_false_eq_true, if_true,
            if_false]
    · refine .inr ⟨.month, n, ?_, ?_⟩
      · simp only [List.findSome?, fy, fm, Option.map_none, Option.map_some]
      · simp only [hy, hm, ← hn, ne_eq, not_true_eq_false, not_false_eq_true, if_true, if_false]
  · refine .inr ⟨.year, n, ?_, ?_⟩
    · simp only [List.findSome?, fy, Option.map_some]
    · simp only [hy, ← hn, ne_eq, not_false_eq_true, if_true]

/-- A factor other than zero does not make a product smaller. -/
theorem bounds_of_mul {a b : Int} (hb : b ≠ 0) (h : -2 ^ 40 < a * b ∧ a * b < 2 ^ 40) :
    -2 ^ 40 < a ∧ a < 2 ^ 40 := by
  have hle : a.natAbs ≤ (a * b).natAbs := by
    rw [Int.natAbs_mul]
    exact Nat.le_mul_of_pos_right _ (by omega)
  omega

/-- A step by a product of words is the leg of the product, over the integers. -/
theorem bind_mul?_iff_leads {unit : CalendarUnit} {step : Date → Int64 → Option Date}
    (hstep : ∀ {d e n}, step d n = some e ↔ Leads [unit.leg n.toInt] d.fixed e.fixed)
    (n direction : Int64) :
    (Checked.mul? n direction).bind (step d) = some e ↔
      Leads [unit.leg (n.toInt * direction.toInt)] d.fixed e.fixed := by
  constructor
  · intro h
    obtain ⟨product, hproduct, h⟩ := Option.bind_eq_some_iff.1 h
    rw [← Checked.mul?_eq_some_iff.1 hproduct]
    exact hstep.1 h
  · intro h
    -- a product that leads somewhere is small, so a word holds it
    obtain ⟨product, hproduct, hvalue⟩ := Checked.exists_mul? (number_bounds_of_leads h)
    rw [hproduct, Option.bind_some, hstep, hvalue]
    exact h

/-- Weeks become days before the direction is taken into account. -/
theorem leads_of_stepFrom?_week {n direction : Int64}
    (h : Shift.stepFrom? d .week n direction = some e) :
    Leads [CalendarUnit.week.leg (n.toInt * direction.toInt)] d.fixed e.fixed := by
  obtain ⟨days, hdays, h⟩ := Option.bind_eq_some_iff.1 h
  obtain ⟨product, hproduct, h⟩ := Option.bind_eq_some_iff.1 h
  rw [Checked.mul?_eq_some_iff] at hdays hproduct
  rw [Date.addDays?_eq_some_iff, hproduct, hdays, show (7 : Int64).toInt = 7 from rfl] at h
  rw [CalendarUnit.leg, leads_days, h, Int.mul_comm n.toInt, Int.mul_assoc]

/-- A direction of zero would hide that the days do not fit into a word. -/
theorem stepFrom?_week_iff_leads {n direction : Int64} (hdirection : direction.toInt ≠ 0) :
    Shift.stepFrom? d .week n direction = some e ↔
      Leads [CalendarUnit.week.leg (n.toInt * direction.toInt)] d.fixed e.fixed := by
  constructor
  · exact leads_of_stepFrom?_week
  · intro hleads
    have hseven : (7 : Int64).toInt = 7 := rfl
    have h := leads_days.1 hleads
    simp only [Shift.stepFrom?, bind]
    have hproduct : 7 * (n.toInt * direction.toInt) = n.toInt * 7 * direction.toInt := by
      rw [← Int.mul_assoc, Int.mul_comm 7]
    have hbounds := count_bounds_of_leads d.supported hleads _ (List.mem_singleton_self _)
    simp only [CalendarUnit.leg, Leg.count, hproduct] at hbounds
    -- the days are no more than their product with the direction, so both fit
    obtain ⟨days, hdays, hvalue⟩ := Checked.exists_mul? (a := n) (b := 7)
      (bounds_of_mul hdirection hbounds)
    rw [hseven] at hvalue
    rw [← hvalue] at hbounds
    obtain ⟨product, hmul, hvalue'⟩ := Checked.exists_mul? hbounds
    rw [hdays, Option.bind_some, hmul, Option.bind_some, Date.addDays?_eq_some_iff, hvalue',
      hvalue, h, hproduct]

theorem stepFrom?_iff_leads {unit : CalendarUnit} {n direction : Int64}
    (hdirection : direction.toInt ≠ 0) :
    Shift.stepFrom? d unit n direction = some e ↔
      Leads [unit.leg (n.toInt * direction.toInt)] d.fixed e.fixed := by
  cases unit with
  | day => exact bind_mul?_iff_leads addDays?_iff_leads n direction
  | month => exact bind_mul?_iff_leads addMonths?_iff_leads n direction
  | year => exact bind_mul?_iff_leads addYears?_iff_leads n direction
  | week => exact stepFrom?_week_iff_leads hdirection

/-- A step that comes to a date follows its leg, whatever the direction. -/
theorem leads_of_stepFrom? {unit : CalendarUnit} {n direction : Int64}
    (h : Shift.stepFrom? d unit n direction = some e) :
    Leads [unit.leg (n.toInt * direction.toInt)] d.fixed e.fixed := by
  cases unit with
  | day => exact (bind_mul?_iff_leads addDays?_iff_leads n direction).1 h
  | month => exact (bind_mul?_iff_leads addMonths?_iff_leads n direction).1 h
  | year => exact (bind_mul?_iff_leads addYears?_iff_leads n direction).1 h
  | week => exact leads_of_stepFrom?_week h

/-- A shift that comes to a date follows its legs, whatever its direction. -/
theorem Shift.leads_of_from? {duration : Duration} {direction : Int64}
    (h : from? ⟨some duration, some direction⟩ d = some e) :
    ∃ legs, legs? ⟨some duration, some direction⟩ = some legs ∧ Leads legs d.fixed e.fixed := by
  simp only [from?, bind, Option.bind_some] at h
  rcases legs?_eq_of_leading? duration direction with ⟨hnone, hlegs⟩ | ⟨unit, n, hsome, hlegs⟩
  · rw [hnone, Option.some_inj] at h
    exact ⟨[], hlegs, leads_nil.2 (congrArg Date.fixed h)⟩
  · rw [hsome] at h
    exact ⟨_, hlegs, leads_of_stepFrom? h⟩

/-- **A shift** follows its legs, unless its direction is zero. -/
theorem Shift.from?_iff_leads {shift : Shift} (h : shift.direction ≠ some 0) :
    shift.from? d = some e ↔
      ∃ legs, shift.legs? = some legs ∧ Leads legs d.fixed e.fixed := by
  match shift with
  | ⟨none, direction⟩ => simp [from?, legs?]
  | ⟨some duration, none⟩ => simp [from?, legs?]
  | ⟨some duration, some direction⟩ =>
    have hdirection : direction.toInt ≠ 0 := by
      intro hzero
      exact h (congrArg some (Int64.toInt_inj.1 hzero))
    rcases legs?_eq_of_leading? duration direction with ⟨hnone, hlegs⟩ | ⟨unit, n, hsome, hlegs⟩
    · simp only [from?, bind, Option.bind_some, hnone, hlegs, Option.some_inj, exists_eq_left',
        leads_nil, Date.fixed_inj]
    · simp only [from?, bind, Option.bind_some, hsome, hlegs, Option.some_inj, exists_eq_left',
        stepFrom?_iff_leads hdirection]

/-! ### Weekday and calendar phrases -/

theorem WeekdayPhrase.resolve?_iff_leads {phrase : WeekdayPhrase}
    (h : ∀ n, phrase.weekday = some n → 0 ≤ n.toInt ∧ n.toInt ≤ 6) :
    phrase.resolve? today = some d ↔
      ∃ days, phrase.days? today.fixed = some days ∧
        Leads [.days days] today.fixed d.fixed := by
  obtain ⟨weekday, distance⟩ := phrase
  cases weekday with
  | none => simp [resolve?, offset?, days?]
  | some weekday =>
    have hweekday := h weekday rfl
    have hseven : (7 : Int64).toInt = 7 := rfl
    have hcurrent : (Int64.ofNat today.weekday).toInt = today.fixed % 7 := by
      have := today.weekday_lt
      rw [Int64.toInt_ofNat_of_lt (by omega), today.cast_weekday]
    -- the days until the weekday in the week of today fit into a word
    have hword := Int64.toInt_ofInt_of_le (n := weekday.toInt - today.fixed % 7)
      (by omega) (by omega)
    have hahead : Checked.sub? weekday (Int64.ofNat today.weekday) =
        some (Int64.ofInt (weekday.toInt - today.fixed % 7)) := by
      rw [Checked.sub?_eq_some_iff, hcurrent, hword]
    simp only [resolve?_eq_some_iff, offset?, bind, Option.bind_some, hahead, days?,
      Option.map_some, Option.some_inj, exists_eq_left', leads_days]
    cases distance with
    | none =>
      simp only [hword, Option.some_inj, exists_eq_left']
      rw [Int64.toInt_ofInt_of_le (by omega) (by omega)]
    | some distance =>
      simp only [Option.bind_eq_some_iff]
      constructor
      · rintro ⟨offset, ⟨weeks, hweeks, hadd⟩, hd⟩
        rw [Checked.mul?_eq_some_iff, hseven] at hweeks
        rw [Checked.add?_eq_some_iff, hweeks, hword] at hadd
        omega
      · intro hd
        -- a day inside the span is few weeks away
        have hbounds := count_bounds_of_leads today.supported (leads_days.2 hd) _
          (List.mem_singleton_self _)
        simp only [Leg.count] at hbounds
        have hweeks := Int64.toInt_ofInt_of_le (n := distance.toInt * 7) (by omega) (by omega)
        have hoffset := Int64.toInt_ofInt_of_le
          (n := distance.toInt * 7 + (weekday.toInt - today.fixed % 7)) (by omega) (by omega)
        refine ⟨Int64.ofInt (distance.toInt * 7 + (weekday.toInt - today.fixed % 7)),
          ⟨Int64.ofInt (distance.toInt * 7), ?_, ?_⟩, ?_⟩
        · rw [Checked.mul?_eq_some_iff, hweeks, hseven]
        · rw [Checked.add?_eq_some_iff, hoffset, hweeks, hword]
        · omega

theorem CalendarPhrase.resolve?_iff_route {phrase : CalendarPhrase} :
    phrase.resolve? today = some d ↔
      ∃ route, phrase.route? today.fixed = some route ∧ Supported route.start ∧
        Leads route.legs route.start d.fixed := by
  have key : ∀ (year : Int32) (month day : UInt32), inYear? year month day = some d ↔
      Supported (firstOfMonth (12 * year.toInt + month.toNat - 1)) ∧
        Leads [.days (day.toNat - 1)] (firstOfMonth (12 * year.toInt + month.toNat - 1))
          d.fixed := by
    intro year month day
    rw [inYear?_eq_some_iff, leads_days]
  obtain ⟨month, day, year⟩ := phrase
  simp only [resolve?, route?, yearOr?]
  cases month with
  | none => cases year <;> simp
  | some month =>
    cases day with
    | none => cases year <;> simp
    | some day =>
      cases year with
      | none => simp [key, Date.toInt_yearWord, Date.year]
      | some token => cases h : token.value? <;> simp [key, h]

/-! ### Phrases -/

/-- Every weekday that is named is one of the seven, and no shift has direction zero. -/
def Phrase.IsRegular : Phrase → Prop
  | .weekday w => ∀ n, w.weekday = some n → 0 ≤ n.toInt ∧ n.toInt ≤ 6
  | .fromPoint shift _ => shift.direction ≠ some 0
  | .fromPhrase shift base => shift.direction ≠ some 0 ∧ base.IsRegular
  | _ => True

private theorem resolve?_iff_leads {phrase : Phrase} (h : phrase.IsRegular) :
    phrase.resolve? today = some d ↔
      ∃ route, phrase.route? today.fixed = some route ∧ Supported route.start ∧
        Leads route.legs route.start d.fixed := by
  -- by induction on the chain, where the date that the base leads to is any
  induction phrase generalizing d with
  | empty => simp [Phrase.resolve?, Phrase.route?]
  | offset o =>
    rw [Phrase.resolve?, Offset.resolve?_iff_leads, Phrase.route?]
    cases o.legs? <;> simp [today.supported]
  | weekday w =>
    rw [Phrase.resolve?, WeekdayPhrase.resolve?_iff_leads h, Phrase.route?]
    cases w.days? today.fixed <;> simp [today.supported]
  | calendar c =>
    rw [Phrase.resolve?, CalendarPhrase.resolve?_iff_route, Phrase.route?]
  | fromPoint shift point =>
    cases point with
    | none => simp [Phrase.resolve?, Phrase.route?]
    | some point =>
      have hstart : (point.resolve today).fixed = point.start today.fixed := by
        cases point <;> rfl
      have hspan := hstart ▸ (point.resolve today).supported
      rw [Phrase.resolve?, Option.bind_some, Shift.from?_iff_leads h, hstart]
      cases hlegs : shift.legs? <;> simp [Phrase.route?, hlegs, hspan]
  | fromPhrase shift base ih =>
    have hbase : ∀ d, base.resolve? today = some d ↔ _ := fun d => ih h.2
    rw [Phrase.resolve?, Option.bind_eq_some_iff]
    simp only [hbase, Shift.from?_iff_leads h.1, Phrase.route?, bind, Option.bind_eq_some_iff,
      Option.some_inj]
    constructor
    · rintro ⟨e, ⟨route, hroute, hspan, hleads⟩, legs, hlegs, hmore⟩
      exact ⟨_, ⟨route, hroute, legs, hlegs, rfl⟩, hspan,
        leads_append.2 ⟨e.fixed, hleads, hmore⟩⟩
    · rintro ⟨_, ⟨route, hroute, legs, hlegs, rfl⟩, hspan, hleads⟩
      -- the legs of the base end on a date, from which those of the shift go on
      obtain ⟨middle, hleads, hmore⟩ := leads_append.1 hleads
      have hmiddle := supported_of_leads hspan hleads
      exact ⟨⟨middle, hmiddle.1, hmiddle.2⟩, ⟨route, hroute, hspan, hleads⟩, legs, hlegs, hmore⟩

/-- **Resolution is exact.** -/
theorem Phrase.resolve?_eq_some_iff_route {phrase : Phrase} (h : phrase.IsRegular)
    (today d : Date) :
    phrase.resolve? today = some d ↔
      ∃ route, phrase.route? today.fixed = some route ∧
        (∀ n ∈ route.stops, Supported n) ∧ route.arrival = d.fixed := by
  rw [resolve?_iff_leads h]
  simp only [Route.stops, Route.arrival, List.forall_mem_cons, Leads, and_assoc]

/-- A week before the day that lies a year after 29 February 2012 is 22 February 2013. -/
theorem Phrase.route?_week_before_leap_day :
    (fromPhrase ⟨some (.single .week 1), some (-1)⟩ (fromPhrase ⟨some (.single .year 1), some 1⟩
      (calendar ⟨some 2, some 29, some (.digits "12")⟩))).IsRegular ∧
    ∃ route, (fromPhrase ⟨some (.single .week 1), some (-1)⟩
      (fromPhrase ⟨some (.single .year 1), some 1⟩
        (calendar ⟨some 2, some 29, some (.digits "12")⟩))).route? 737894 = some route ∧
      (∀ n ∈ route.stops, Supported n) ∧ route.arrival = fixed 2013 2 22 := by
  have hregular : (fromPhrase ⟨some (.single .week 1), some (-1)⟩
      (fromPhrase ⟨some (.single .year 1), some 1⟩
        (calendar ⟨some 2, some 29, some (.digits "12")⟩))).IsRegular :=
    ⟨by decide, by decide, trivial⟩
  exact ⟨hregular, (resolve?_eq_some_iff_route hregular ⟨737894, by decide, by decide⟩
    ⟨fixed 2013 2 22, by decide, by decide⟩).1 (by decide +kernel)⟩

end SpokenDate
