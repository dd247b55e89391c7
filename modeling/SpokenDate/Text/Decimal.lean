/-
Numbers in digits, as they are written in field texts.

Only the ten ASCII digits count.  There may be any number of leading zeros, and neither
blanks, separators nor a plus sign are allowed.

* **`natural?_eq_some_iff`**: a text is a natural number exactly when it is one or more
  digits, and then it stands for their positional value;
* **`value_append`**: reading more digits multiplies by ten for each of them, which
  pins the positional value down;
* **`value_lt`**: so many digits count up to so many powers of ten;
* **`integer?_eq_some_iff`**: a text is an integer exactly when it spells one;
* **`ordinal?_eq_some_iff`**: a text is an ordinal exactly when it is a natural number
  that at most one suffix follows.
-/

namespace SpokenDate.Decimal

/-- The positional value of digits, the last one counting ones. -/
def value (digits : List Char) : Nat :=
  digits.foldl (fun n c => 10 * n + (c.toNat - '0'.toNat)) 0

/-- The number that one or more digits stand for. -/
def natural? (text : List Char) : Option Nat :=
  if text ≠ [] ∧ text.all Char.isDigit then some (value text) else none

/-- The number that digits stand for, with a minus sign before them or without one. -/
def integer? : List Char → Option Int
  | '-' :: digits => (natural? digits).map fun n => -(n : Int)
  | digits => (natural? digits).map Nat.cast

/-- The number that digits stand for, where one of the suffixes `st`, `nd`, `rd` and `th`
may follow them. -/
def ordinal? (text : List Char) : Option Nat :=
  let isOrdinal := ["st", "nd", "rd", "th"].any fun suffix => suffix.toList.isSuffixOf text
  natural? (if isOrdinal then text.take (text.length - 2) else text)

/-- One or more digits. -/
def IsNumeral (text : List Char) : Prop := text ≠ [] ∧ ∀ c ∈ text, c.isDigit

/-- The text spells `n` by digits, with a minus sign before them or without one. -/
def Spells (text : List Char) (n : Int) : Prop :=
  (IsNumeral text ∧ n = value text) ∨
    ∃ digits, text = '-' :: digits ∧ IsNumeral digits ∧ n = -value digits

variable {text : List Char}

theorem natural?_eq_some_iff {n : Nat} :
    natural? text = some n ↔ (text ≠ [] ∧ ∀ c ∈ text, c.isDigit) ∧ value text = n := by
  rw [natural?]
  simp only [List.all_eq_true]
  split
  · rename_i h
    rw [Option.some_inj]
    exact ⟨fun e => ⟨h, e⟩, And.right⟩
  · rename_i h
    simp only [reduceCtorEq, false_iff]
    exact fun e => h e.1

private theorem foldl_append (digits : List Char) (start : Nat) :
    digits.foldl (fun n c => 10 * n + (c.toNat - '0'.toNat)) start =
      start * Nat.pow 10 digits.length + value digits := by
  induction digits generalizing start with
  | nil => simp [value]
  | cons c digits ih =>
    simp only [value, List.foldl_cons, List.length_cons] at ih ⊢
    rw [ih, ih (10 * 0 + _), Nat.pow]
    grind

theorem value_append (left right : List Char) :
    value (left ++ right) = value left * Nat.pow 10 right.length + value right := by
  rw [value, List.foldl_append, foldl_append]
  rfl

theorem value_lt {digits : List Char} (h : ∀ c ∈ digits, c.isDigit) :
    value digits < Nat.pow 10 digits.length := by
  induction digits with
  | nil => exact Nat.zero_lt_one
  | cons c digits ih =>
    have hdigits := ih fun d hd => h d (List.mem_cons_of_mem _ hd)
    have hdigit : c.toNat - '0'.toNat ≤ 9 := by
      have hc := h c List.mem_cons_self
      simp only [Char.isDigit, Bool.and_eq_true, decide_eq_true_eq, UInt32.le_iff_toNat_le] at hc
      have hnine : '9'.val.toNat = 57 := rfl
      have hzero : '0'.toNat = 48 := rfl
      have hval : c.toNat = c.val.toNat := rfl
      omega
    have hfirst : value [c] = c.toNat - '0'.toNat := by simp [value]
    have happend := value_append [c] digits
    rw [List.singleton_append, hfirst] at happend
    rw [happend]
    calc (c.toNat - '0'.toNat) * Nat.pow 10 digits.length + value digits
        < (c.toNat - '0'.toNat) * Nat.pow 10 digits.length + Nat.pow 10 digits.length :=
          Nat.add_lt_add_left hdigits _
      _ = (c.toNat - '0'.toNat + 1) * Nat.pow 10 digits.length := (Nat.succ_mul _ _).symm
      _ ≤ 10 * Nat.pow 10 digits.length := Nat.mul_le_mul_right _ (Nat.succ_le_succ hdigit)
      _ = Nat.pow 10 (digits.length + 1) := Nat.mul_comm _ _

private theorem map_natural?_eq_some_iff {digits : List Char} {sign : Nat → Int} {n : Int} :
    (natural? digits).map sign = some n ↔ IsNumeral digits ∧ n = sign (value digits) := by
  rw [Option.map_eq_some_iff]
  constructor
  · rintro ⟨k, hk, rfl⟩
    obtain ⟨hnumeral, rfl⟩ := natural?_eq_some_iff.1 hk
    exact ⟨hnumeral, rfl⟩
  · rintro ⟨hnumeral, rfl⟩
    exact ⟨value digits, natural?_eq_some_iff.2 ⟨hnumeral, rfl⟩, rfl⟩

private theorem integer?_minus (digits : List Char) :
    integer? ('-' :: digits) = (natural? digits).map fun k => -Int.ofNat k := by
  rw [integer?]
  cases natural? digits <;> rfl

private theorem integer?_of_ne (h : ∀ digits, text ≠ '-' :: digits) :
    integer? text = (natural? text).map Int.ofNat := by
  rw [integer?.eq_def]
  split
  · rename_i digits
    exact absurd rfl (h digits)
  · rfl

theorem integer?_eq_some_iff {n : Int} : integer? text = some n ↔ Spells text n := by
  by_cases hminus : ∃ digits, text = '-' :: digits
  · obtain ⟨digits, rfl⟩ := hminus
    rw [integer?_minus, map_natural?_eq_some_iff]
    constructor
    · intro h
      exact .inr ⟨digits, rfl, h⟩
    · rintro (⟨hnumeral, -⟩ | ⟨digits', hdigits, h⟩)
      · -- a minus sign is no digit
        exact absurd (hnumeral.2 '-' List.mem_cons_self) (by decide)
      · cases hdigits
        exact h
  · rw [integer?_of_ne fun digits h => hminus ⟨digits, h⟩, map_natural?_eq_some_iff]
    constructor
    · exact .inl
    · rintro (h | ⟨digits, hdigits, -⟩)
      · exact h
      · exact absurd ⟨digits, hdigits⟩ hminus

/-- The suffixes of ordinals are two letters each and not two digits. -/
private theorem suffix_letters {suffix : String} (h : suffix ∈ ["st", "nd", "rd", "th"]) :
    suffix.toList.length = 2 ∧ suffix.toList.all Char.isDigit = false := by
  have hall : ∀ suffix ∈ ["st", "nd", "rd", "th"],
      suffix.toList.length = 2 ∧ suffix.toList.all Char.isDigit = false := by decide
  exact hall suffix h

theorem ordinal?_eq_some_iff {n : Nat} :
    ordinal? text = some n ↔
      ∃ digits, ∃ suffix ∈ ["", "st", "nd", "rd", "th"],
        text = digits ++ suffix.toList ∧ natural? digits = some n := by
  rw [ordinal?]
  by_cases h : (["st", "nd", "rd", "th"].any fun suffix => suffix.toList.isSuffixOf text) = true
  · rw [if_pos h]
    obtain ⟨suffix, hsuffix, hends⟩ := List.any_eq_true.1 h
    obtain ⟨digits, rfl⟩ := List.isSuffixOf_iff_suffix.1 hends
    obtain ⟨hlength, hletters⟩ := suffix_letters hsuffix
    have htake :
        (digits ++ suffix.toList).take ((digits ++ suffix.toList).length - 2) = digits := by
      rw [List.length_append, hlength, Nat.add_sub_cancel, List.take_left]
    rw [htake]
    constructor
    · intro hn
      exact ⟨digits, suffix, List.mem_cons_of_mem _ hsuffix, rfl, hn⟩
    · rintro ⟨digits', suffix', hsuffix', heq, hn⟩
      rcases List.mem_cons.1 hsuffix' with rfl | hsuffix'
      · -- the letters of the suffix are no digits
        rw [String.toList_empty, List.append_nil] at heq
        have hdigits := (natural?_eq_some_iff.1 hn).1.2
        have hall : suffix.toList.all Char.isDigit = true :=
          List.all_eq_true.2 fun c hc => hdigits c (heq ▸ List.mem_append_right _ hc)
        cases hletters.symm.trans hall
      · have hlength' := (suffix_letters hsuffix').1
        rw [(List.append_inj' heq (hlength.trans hlength'.symm)).1]
        exact hn
  · rw [if_neg h]
    constructor
    · intro hn
      exact ⟨text, "", List.mem_cons_self, (List.append_nil text).symm, hn⟩
    · rintro ⟨digits, suffix, hsuffix, rfl, hn⟩
      rcases List.mem_cons.1 hsuffix with rfl | hsuffix
      · rw [String.toList_empty, List.append_nil]
        exact hn
      · refine absurd (List.any_eq_true.2 ⟨suffix, hsuffix, ?_⟩) h
        exact List.isSuffixOf_iff_suffix.2 (List.suffix_append digits suffix.toList)

end SpokenDate.Decimal
