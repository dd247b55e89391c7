/-
The proleptic Gregorian calendar over all integer years.

Years run without a gap through 0 and the negatives; year 0 is a leap year.  Days
are numbered one after the other, day 1 being 1 January of year 1, so that the day
number modulo 7 is the weekday counted from Sunday.

These rules are taken over from what a calendar library documents of its date type: the
lengths of the months, the leap years, the weekdays, and days that follow each other in
the same way before the reform of the calendar as after it.  What else is taken over of
that type stands with the dates, in `Calendar.Date`.

* **`daysBeforeYear_succ`**, **`monthLength_february`**: the leap years and the leap day are
  those that the quotients in the number of days before a year bring about;
* **`fixed_fields`**: the year, month and day of a day number lead back to it;
* **`yearOf_fixed`**, **`monthOf_fixed`**, **`dayOf_fixed`**: a real year, month and
  day are the ones read off their day number;
* **`monthOf_mem`**, **`dayOf_mem`**: what is read off a day number is a month from 1
  to 12 and a day that this month has.

Design notes: `400 * n / 146097` is the number of whole mean years in `n` days.  The
days before a year stray from the mean by less than two, so the year of a day is that
number or the next, and `yearOf` needs one comparison instead of a search.
-/

namespace SpokenDate.Gregorian

/-- Every fourth year is a leap year, except the centuries that 400 does not divide. -/
def isLeap (year : Int) : Bool :=
  (year % 4 == 0 && year % 100 != 0) || year % 400 == 0

/-- The number of days in a month, January being 1. -/
def monthLength (year : Int) (month : Nat) : Nat :=
  if month = 2 then (if isLeap year then 29 else 28)
  else if month = 4 ∨ month = 6 ∨ month = 9 ∨ month = 11 then 30
  else 31

/-- The number of days from day 1 to the end of the year before `year`. -/
def daysBeforeYear (year : Int) : Int :=
  365 * (year - 1) + (year - 1) / 4 - (year - 1) / 100 + (year - 1) / 400

/-- The number of days of the year that lie before the month. -/
def daysBeforeMonth (year : Int) : Nat → Nat
  | 0 => 0
  | 1 => 0
  | month + 2 => daysBeforeMonth year (month + 1) + monthLength year (month + 1)

/-- The day number of a year, month and day. -/
def fixed (year : Int) (month day : Nat) : Int :=
  daysBeforeYear year + daysBeforeMonth year month + day

/-- The year that holds day `n`. -/
def yearOf (n : Int) : Int :=
  let year := 400 * (n - 1) / 146097 + 1
  if daysBeforeYear (year + 1) < n then year + 1 else year

/-- The last of the first `bound` months that begins before the `day`-th day of the year. -/
def monthUpTo (year : Int) (day : Int) : (bound : Nat) → Nat
  | 0 => 1
  | month + 1 =>
    if daysBeforeMonth year (month + 1) < day then month + 1 else monthUpTo year day month

/-- The month that holds day `n`, from 1 to 12. -/
def monthOf (n : Int) : Nat :=
  monthUpTo (yearOf n) (n - daysBeforeYear (yearOf n)) 12

/-- The day of the month that day `n` is, from 1 on. -/
def dayOf (n : Int) : Nat :=
  (n - daysBeforeYear (yearOf n) - daysBeforeMonth (yearOf n) (monthOf n)).toNat

/-! ### Years -/

theorem isLeap_iff (year : Int) :
    isLeap year = true ↔ (year % 4 = 0 ∧ year % 100 ≠ 0) ∨ year % 400 = 0 := by
  simp [isLeap]

/-- A year is as long as its twelve months. -/
theorem daysBeforeYear_succ (year : Int) :
    daysBeforeYear (year + 1) = daysBeforeYear year + (if isLeap year then 366 else 365) := by
  -- a quotient grows by one exactly at the multiples
  have h₄ : year / 4 = (year - 1) / 4 + if year % 4 = 0 then 1 else 0 := by split <;> omega
  have h₁₀₀ : year / 100 = (year - 1) / 100 + if year % 100 = 0 then 1 else 0 := by
    split <;> omega
  have h₄₀₀ : year / 400 = (year - 1) / 400 + if year % 400 = 0 then 1 else 0 := by
    split <;> omega
  simp only [daysBeforeYear, Int.add_sub_cancel, h₄, h₁₀₀, h₄₀₀, isLeap_iff]
  clear h₄ h₁₀₀ h₄₀₀
  by_cases d₄ : year % 4 = 0 <;> by_cases d₁₀₀ : year % 100 = 0 <;>
    by_cases d₄₀₀ : year % 400 = 0 <;> simp only [d₄, d₁₀₀, d₄₀₀, if_true, if_false, ne_eq,
      not_true_eq_false, not_false_eq_true, and_true, and_false, or_true, or_false,
      or_self] <;> omega

theorem daysBeforeYear_le {y z : Int} (h : y ≤ z) : daysBeforeYear y ≤ daysBeforeYear z := by
  simp only [daysBeforeYear]
  omega

/-- The year of day `n` begins before `n` and does not end before it. -/
theorem daysBeforeYear_yearOf (n : Int) :
    daysBeforeYear (yearOf n) < n ∧ n ≤ daysBeforeYear (yearOf n + 1) := by
  rw [yearOf]
  split <;> (simp only [daysBeforeYear] at *; omega)

/-- Only one year holds day `n`. -/
theorem yearOf_eq {n year : Int} (h₁ : daysBeforeYear year < n)
    (h₂ : n ≤ daysBeforeYear (year + 1)) : yearOf n = year := by
  obtain ⟨h₃, h₄⟩ := daysBeforeYear_yearOf n
  rcases Int.lt_trichotomy (yearOf n) year with h | h | h
  · have := daysBeforeYear_le (show yearOf n + 1 ≤ year by omega)
    omega
  · exact h
  · have := daysBeforeYear_le (show year + 1 ≤ yearOf n by omega)
    omega

/-! ### Months -/

theorem monthLength_pos (year : Int) (month : Nat) : 28 ≤ monthLength year month := by
  simp only [monthLength]
  split
  · split <;> omega
  · split <;> omega

theorem monthLength_le (year : Int) (month : Nat) : monthLength year month ≤ 31 := by
  simp only [monthLength]
  split
  · split <;> omega
  · split <;> omega

theorem daysBeforeMonth_succ (year : Int) {month : Nat} (h : 1 ≤ month) :
    daysBeforeMonth year (month + 1) = daysBeforeMonth year month + monthLength year month := by
  obtain ⟨m, rfl⟩ : ∃ m, month = m + 1 := ⟨month - 1, by omega⟩
  rfl

theorem daysBeforeMonth_le (year : Int) {m m' : Nat} (h : m ≤ m') :
    daysBeforeMonth year m ≤ daysBeforeMonth year m' := by
  induction m' with
  | zero => simp_all
  | succ m' ih =>
    rcases Nat.lt_or_ge m (m' + 1) with hlt | hge
    · refine Nat.le_trans (ih (by omega)) ?_
      cases m' with
      | zero => exact Nat.le_refl _
      | succ m' => exact Nat.le_add_right _ _
    · have : m = m' + 1 := by omega
      subst this
      exact Nat.le_refl _

/-- Only a leap day puts a month later in one year than in another. -/
theorem daysBeforeMonth_le_add (y z : Int) (month : Nat) :
    daysBeforeMonth y month ≤ daysBeforeMonth z month + (isLeap y).toNat := by
  match month with
  | 0 => exact Nat.zero_le _
  | 1 => exact Nat.zero_le _
  | 2 => exact Nat.le_add_right _ _
  | 3 =>
    simp only [daysBeforeMonth, monthLength]
    cases isLeap y <;> cases isLeap z <;> simp
  | month + 4 =>
    -- after February all years go on alike
    have ih := daysBeforeMonth_le_add y z (month + 3)
    have hsame : monthLength y (month + 3) = monthLength z (month + 3) := by simp [monthLength]
    rw [daysBeforeMonth_succ y (show 1 ≤ month + 3 by omega),
      daysBeforeMonth_succ z (show 1 ≤ month + 3 by omega), hsame]
    omega

/-- The twelve months make up the year. -/
theorem daysBeforeMonth_thirteen (year : Int) :
    daysBeforeMonth year 13 = if isLeap year then 366 else 365 := by
  cases h : isLeap year <;> simp [daysBeforeMonth, monthLength, h]

/-- **February has what the other months leave of the year**, and how long the year is comes from
counting days before years, which does not ask for leap years. -/
theorem monthLength_february (year : Int) :
    (monthLength year 2 : Int) = daysBeforeYear (year + 1) - daysBeforeYear year - 337 := by
  rw [daysBeforeYear_succ, monthLength, if_pos rfl]
  split <;> omega

theorem monthUpTo_le (year day : Int) (bound : Nat) (h : 1 ≤ bound) :
    1 ≤ monthUpTo year day bound ∧ monthUpTo year day bound ≤ bound := by
  induction bound with
  | zero => omega
  | succ m ih =>
    simp only [monthUpTo]
    split
    · omega
    · cases m with
      | zero => simp [monthUpTo]
      | succ m => have := ih (by omega); omega

/-- The month found begins before the day, and the day is not past its end. -/
theorem daysBeforeMonth_monthUpTo (year : Int) {day : Int} (bound : Nat) (hday : 0 < day)
    (h : day ≤ daysBeforeMonth year (bound + 1)) :
    daysBeforeMonth year (monthUpTo year day bound) < day ∧
      day ≤ daysBeforeMonth year (monthUpTo year day bound + 1) := by
  induction bound with
  | zero => simp only [daysBeforeMonth] at h; omega
  | succ m ih =>
    simp only [monthUpTo]
    split
    · rename_i hm; exact ⟨hm, h⟩
    · rename_i hm; exact ih (by omega)

/-! ### Day numbers and their parts -/

theorem monthOf_mem (n : Int) : 1 ≤ monthOf n ∧ monthOf n ≤ 12 :=
  monthUpTo_le _ _ 12 (by omega)

private theorem dayOfYear_monthOf (n : Int) :
    daysBeforeMonth (yearOf n) (monthOf n) < n - daysBeforeYear (yearOf n) ∧
      n - daysBeforeYear (yearOf n) ≤ daysBeforeMonth (yearOf n) (monthOf n + 1) := by
  obtain ⟨h₁, h₂⟩ := daysBeforeYear_yearOf n
  rw [daysBeforeYear_succ] at h₂
  refine daysBeforeMonth_monthUpTo _ 12 (by omega) ?_
  rw [daysBeforeMonth_thirteen]
  split at h₂ <;> simp_all <;> omega

theorem dayOf_mem (n : Int) : 1 ≤ dayOf n ∧ dayOf n ≤ monthLength (yearOf n) (monthOf n) := by
  obtain ⟨h₁, h₂⟩ := dayOfYear_monthOf n
  rw [daysBeforeMonth_succ _ (monthOf_mem n).1] at h₂
  simp only [dayOf]
  omega

/-- **The parts of a day number lead back to it.** -/
theorem fixed_fields (n : Int) : fixed (yearOf n) (monthOf n) (dayOf n) = n := by
  obtain ⟨h₁, -⟩ := dayOfYear_monthOf n
  simp only [fixed, dayOf]
  omega

variable {year : Int} {month day : Nat}

/-- A real date lies in its year. -/
theorem fixed_mem_year (hm : 1 ≤ month ∧ month ≤ 12)
    (hd : 1 ≤ day ∧ day ≤ monthLength year month) :
    daysBeforeYear year < fixed year month day ∧
      fixed year month day ≤ daysBeforeYear (year + 1) := by
  have h := daysBeforeMonth_le year (show month + 1 ≤ 13 by omega)
  rw [daysBeforeMonth_succ _ hm.1, daysBeforeMonth_thirteen] at h
  rw [daysBeforeYear_succ]
  simp only [fixed]
  split <;> simp_all <;> omega

theorem yearOf_fixed (hm : 1 ≤ month ∧ month ≤ 12)
    (hd : 1 ≤ day ∧ day ≤ monthLength year month) : yearOf (fixed year month day) = year :=
  yearOf_eq (fixed_mem_year hm hd).1 (fixed_mem_year hm hd).2

theorem monthOf_fixed (hm : 1 ≤ month ∧ month ≤ 12)
    (hd : 1 ≤ day ∧ day ≤ monthLength year month) : monthOf (fixed year month day) = month := by
  obtain ⟨h₁, h₂⟩ := dayOfYear_monthOf (fixed year month day)
  rw [yearOf_fixed hm hd] at h₁ h₂
  have hsucc := daysBeforeMonth_succ year hm.1
  simp only [fixed] at h₁ h₂
  rcases Nat.lt_trichotomy (monthOf (fixed year month day)) month with h | h | h
  · have := daysBeforeMonth_le year (Nat.succ_le_of_lt h)
    simp only [fixed, Nat.succ_eq_add_one] at this
    omega
  · exact h
  · have := daysBeforeMonth_le year (Nat.succ_le_of_lt h)
    simp only [fixed, Nat.succ_eq_add_one] at this
    omega

theorem dayOf_fixed (hm : 1 ≤ month ∧ month ≤ 12)
    (hd : 1 ≤ day ∧ day ≤ monthLength year month) : dayOf (fixed year month day) = day := by
  simp only [dayOf, yearOf_fixed hm hd, monthOf_fixed hm hd]
  simp only [fixed]
  omega

end SpokenDate.Gregorian
