/-
Steps from a date by days, weeks, months and years.

A step by months or years keeps the day of the month.  Where the target month is
shorter, the surplus days roll over into the month after it, so that a month after
30 January is 1 or 2 March.  A step that would leave the supported span, or whose
counts no word can hold, leads nowhere.

* **`addDays?_eq_ofFixed?`**, **`int32?_year`**, **`exists_mul?_twelve`**,
  **`addYears?_eq_rolled?`**: the checks on the way, of lengths of time, of years and of counts of
  months, never fire inside the span;
* **`addDays?_eq_some_iff`**: a step by days moves the day number by exactly that many;
* **`addWeeks?_eq_some_iff`**: a week is seven days;
* **`rolled?_eq_some_iff`**: a year, month and day that may roll over name the date that
  lies as many days after the first of the month as the day says, and no word is ever too
  small for that.

Design notes: months are counted from the start of year 0, `12 * year + month - 1`, so
that moving by months is a sum, and quotient and remainder by 12 give back the year and
the month.  The length of time that a step by days goes through is taken over like the dates
themselves, with its bounds: its milliseconds fit into a word, forwards and backwards alike.
-/
import SpokenDate.Calendar.Date
import SpokenDate.Checked

namespace SpokenDate.Date

/-- The date `days` days after `date`, or before it where `days` is negative, if a length of
time can be so many days. -/
def addDays? (date : Date) (days : Int64) : Option Date := do
  let days ← Checked.days? days
  ofFixed? (date.fixed + days.toInt)

/-- The date `weeks` times seven days after `date`. -/
def addWeeks? (date : Date) (weeks : Int64) : Option Date := do
  date.addDays? (← Checked.mul? weeks 7)

/-- The date named by a year, a month counted from 0 for January, and a day counted from
1, where a month or a day outside its range rolls over into the neighbouring years and
months: day 30 of February 2012 is 1 March, month 12 of 2012 is January 2013. -/
def rolled? (year : Int32) (month₀ day : Int64) : Option Date := do
  let months ← Checked.add? (← Checked.mul? year.toInt64 12) month₀
  let year ← Checked.int32? (months.toInt / 12)
  let first ← ofYmd? year.toInt (months.toInt % 12 + 1).toNat 1
  first.addDays? (← Checked.sub? day 1)

/-- The year of a date as a word. -/
def yearWord (date : Date) : Int32 := Int32.ofInt date.year

/-- The date `months` months after `date`, on the same day of the month. -/
def addMonths? (date : Date) (months : Int64) : Option Date := do
  let month₀ ← Checked.add? (Int64.ofNat (date.month - 1)) months
  rolled? date.yearWord month₀ (Int64.ofNat date.day)

/-- The date `years` years after `date`, on the same month and day. -/
def addYears? (date : Date) (years : Int64) : Option Date := do
  let sum ← Checked.add? date.yearWord.toInt64 years
  let year ← Checked.int32? sum.toInt
  rolled? year (Int64.ofNat (date.month - 1)) (Int64.ofNat date.day)

variable {d e : Date} {n : Int64}

/-! ### Checks that never fire inside the span -/

/-- The numbers of the first and last supported days. -/
theorem span_eq : firstDay = -95746129 ∧ lastDay = 95745399 := by decide

/-- A length of time reaches from any date past both ends of the span. -/
theorem addDays?_eq_ofFixed? (d : Date) (n : Int64) :
    d.addDays? n = ofFixed? (d.fixed + n.toInt) := by
  rw [addDays?]
  cases hdays : Checked.days? n with
  | none =>
    rw [Checked.days?_eq_none_iff] at hdays
    have hfirst := d.firstDay_le
    have hlast := d.le_lastDay
    rw [span_eq.1] at hfirst
    rw [span_eq.2] at hlast
    refine (ofFixed?_eq_none_iff.2 ?_).symm
    rw [span_eq.1, span_eq.2]
    omega
  | some days =>
    rw [(Checked.days?_eq_some_iff.1 hdays).1]
    rfl

@[simp] theorem toInt_yearWord (d : Date) : d.yearWord.toInt = d.year := by
  obtain ⟨h₁, h₂⟩ := d.year_mem
  simp only [firstYear, lastYear] at h₁ h₂
  exact Int32.toInt_ofInt_of_le (by omega) (by omega)

/-- A word of 32 bits holds the year of every date. -/
theorem int32?_year (d : Date) : Checked.int32? d.year = some d.yearWord :=
  Checked.int32?_eq_some_iff.2 d.toInt_yearWord

/-- A word of 64 bits holds the months of all years that one of 32 bits holds. -/
theorem exists_mul?_twelve (year : Int32) :
    ∃ months, Checked.mul? year.toInt64 12 = some months ∧ months.toInt = 12 * year.toInt := by
  have htwelve : (12 : Int64).toInt = 12 := rfl
  have hlo := year.le_toInt
  have hhi := year.toInt_lt
  obtain ⟨months, hmonths, hvalue⟩ :=
    Checked.exists_int64? (n := year.toInt64.toInt * (12 : Int64).toInt)
      (by rw [Int32.toInt_toInt64, htwelve]; omega)
  rw [Int32.toInt_toInt64, htwelve, Int.mul_comm] at hvalue
  exact ⟨months, hmonths, hvalue⟩

/-- Of the two checks on the year that a step by years leads to, the narrower one is enough. -/
theorem addYears?_eq_rolled? (d : Date) (n : Int64) :
    d.addYears? n = (Checked.int32? (d.year + n.toInt)).bind fun year =>
      rolled? year (Int64.ofNat (d.month - 1)) (Int64.ofNat d.day) := by
  rw [← d.toInt_yearWord, ← Int32.toInt_toInt64, ← Checked.add?_bind_int32?, Option.bind_assoc]
  rfl

/-! ### Where the steps lead -/

theorem addDays?_eq_some_iff : d.addDays? n = some e ↔ e.fixed = d.fixed + n.toInt := by
  rw [addDays?_eq_ofFixed?, ofFixed?_eq_some_iff]

theorem addWeeks?_eq_some_iff :
    d.addWeeks? n = some e ↔ e.fixed = d.fixed + 7 * n.toInt := by
  have hseven : (7 : Int64).toInt = 7 := rfl
  rw [addWeeks?]
  constructor
  · intro h
    obtain ⟨days, hdays, h⟩ := Option.bind_eq_some_iff.1 h
    rw [Checked.mul?_eq_some_iff, hseven] at hdays
    rw [addDays?_eq_some_iff] at h
    omega
  · intro h
    -- the days between two dates of the span are few enough for a word
    have hspan : -2 ^ 63 ≤ n.toInt * 7 ∧ n.toInt * 7 < 2 ^ 63 := by
      obtain ⟨hfirst, hlast⟩ := span_eq
      have := d.firstDay_le
      have := d.le_lastDay
      have := e.firstDay_le
      have := e.le_lastDay
      omega
    obtain ⟨days, hdays, hproduct⟩ :=
      Checked.exists_int64? (n := n.toInt * (7 : Int64).toInt) (by rw [hseven]; omega)
    refine Option.bind_eq_some_iff.2 ⟨days, hdays, ?_⟩
    rw [addDays?_eq_some_iff, h, hproduct, hseven, Int.mul_comm]

/-- **Rolling over is exact.**  Month and day count from the first of January of the year,
and an answer is missing only where the month or the day lies outside the span. -/
theorem rolled?_eq_some_iff {year : Int32} {month₀ day : Int64} {first : Int}
    (hfirst : first = Gregorian.fixed ((12 * year.toInt + month₀.toInt) / 12)
      ((12 * year.toInt + month₀.toInt) % 12 + 1).toNat 1) :
    rolled? year month₀ day = some d ↔
      (firstYear ≤ (12 * year.toInt + month₀.toInt) / 12 ∧
        (12 * year.toInt + month₀.toInt) / 12 ≤ lastYear) ∧
      d.fixed = first + (day.toInt - 1) := by
  have hone : (1 : Int64).toInt = 1 := rfl
  obtain ⟨start, hstart, hvalue⟩ := exists_mul?_twelve year
  rw [← hvalue] at hfirst ⊢
  simp only [rolled?, hstart, bind, Option.bind_some]
  constructor
  · intro h
    obtain ⟨months, hmonths, h⟩ := Option.bind_eq_some_iff.1 h
    obtain ⟨word, hword, h⟩ := Option.bind_eq_some_iff.1 h
    obtain ⟨date, hdate, h⟩ := Option.bind_eq_some_iff.1 h
    obtain ⟨days, hdays, h⟩ := Option.bind_eq_some_iff.1 h
    rw [Checked.add?_eq_some_iff] at hmonths
    rw [Checked.sub?_eq_some_iff, hone] at hdays
    rw [addDays?_eq_some_iff, hdays] at h
    rw [Checked.int32?_eq_some_iff.1 hword, hmonths] at hdate
    obtain ⟨hyear, hmonth, hday⟩ := ofYmd?_eq_some_iff.1 hdate
    have hmem := date.year_mem
    have hfixed := date.fixed_ymd
    rw [hyear] at hmem
    rw [hyear, hmonth, hday, ← hfirst] at hfixed
    rw [h, hfixed]
    exact ⟨hmem, rfl⟩
  · rintro ⟨hspan, h⟩
    have hlength := Gregorian.monthLength_pos ((start.toInt + month₀.toInt) / 12)
      ((start.toInt + month₀.toInt) % 12 + 1).toNat
    obtain ⟨date, hdate⟩ := exists_ofYmd? hspan
      (show 1 ≤ ((start.toInt + month₀.toInt) % 12 + 1).toNat ∧ _ by omega)
      ⟨Nat.le_refl 1, by omega⟩
    obtain ⟨hyear, hmonth, hday⟩ := ofYmd?_eq_some_iff.1 hdate
    have hfixed := date.fixed_ymd
    rw [hyear, hmonth, hday, ← hfirst] at hfixed
    -- the sum of months and the days left over stay clear of the ends of a word
    have hupper := day.toInt_lt
    have hdate₁ := date.firstDay_le
    have hdate₂ := date.le_lastDay
    have hd₁ := d.firstDay_le
    rw [span_eq.1] at hdate₁ hd₁
    rw [span_eq.2] at hdate₂
    simp only [firstYear, lastYear] at hspan
    obtain ⟨months, hmonths, hsum⟩ :=
      Checked.exists_int64? (n := start.toInt + month₀.toInt) (by omega)
    obtain ⟨days, hdays, hrest⟩ :=
      Checked.exists_int64? (n := day.toInt - (1 : Int64).toInt) (by omega)
    refine Option.bind_eq_some_iff.2 ⟨months, hmonths, ?_⟩
    rw [hsum, ← hyear]
    refine Option.bind_eq_some_iff.2 ⟨_, date.int32?_year, ?_⟩
    rw [toInt_yearWord, hyear]
    refine Option.bind_eq_some_iff.2 ⟨date, hdate, Option.bind_eq_some_iff.2 ⟨days, hdays, ?_⟩⟩
    rw [addDays?_eq_some_iff, hrest, hone, h, hfixed]

end SpokenDate.Date
