/-
Spellings of single values.

The same can be said in more than one way: with letters of either case, and with digits in
place of an integer.  Every reader of single values compares texts in its own way, but none
sees the case of a letter, and none that takes integers sees which of them came as digits.

* **`Recased`**: fields that differ at most in the case of the letters of texts;
* **`ofFields_eq_of_recased`**: these are read as the same phrase or refused with the same
  error;
* **`Respelled`**: an integer, and digits that write it where a number is looked for;
* **`ofFields_eq_of_respelled`**: fields that are accepted are accepted as the same phrase with
  digits in place of integers.

Design notes: what makes both go through is that numbers are written in caseless texts, without
any character from the capitals on.  A caseless text has no second case, and it is no word.
-/
import SpokenDate.Proofs.Likeness

namespace SpokenDate

variable {α : Type} {strict : Prop} {fields others : Fields} {v w : Value} {s t : String}

/-! ### Texts without letters -/

/-- No character from the capitals on is in the text. -/
def Caseless (text : String) : Prop := ∀ c ∈ text.toList, c < 'A'

instance (text : String) : Decidable (Caseless text) :=
  List.decidableBAll (fun c => c < 'A') text.toList

theorem toLower_eq_of_lt {c : Char} (h : c < 'A' ∨ c.toLower < 'A') : c.toLower = c := by
  by_cases hcapital : c.val ≥ 'A'.val ∧ c.val ≤ 'Z'.val
  · -- neither a capital nor its small letter comes before the capitals
    have hsmall : c.toLower.val = c.val + 32 := congrArg Char.val (dif_pos hcapital)
    obtain ⟨hlo, hhi⟩ := hcapital
    have hfirst : 'A'.val.toNat = 65 := rfl
    have hlast : 'Z'.val.toNat = 90 := rfl
    simp only [Char.lt_def, UInt32.lt_iff_toNat_lt, hsmall, UInt32.toNat_add,
      UInt32.reduceToNat] at h
    simp only [ge_iff_le, UInt32.le_iff_toNat_le] at hlo hhi
    omega
  · exact dif_neg hcapital

theorem map_toLower_eq {text : List Char} (h : ∀ c ∈ text, c < 'A' ∨ c.toLower < 'A') :
    text.map Char.toLower = text :=
  (List.map_congr_left fun c hc => toLower_eq_of_lt (h c hc)).trans (List.map_id text)

theorem lt_of_isDigit {c : Char} (h : c.isDigit = true) : c < 'A' := by
  simp only [Char.isDigit, Bool.and_eq_true, decide_eq_true_eq, UInt32.le_iff_toNat_le] at h
  have hnine : '9'.val.toNat = 57 := rfl
  have hfirst : 'A'.val.toNat = 65 := rfl
  rw [Char.lt_def, UInt32.lt_iff_toNat_lt]
  omega

namespace Caseless

theorem lower_eq (h : Caseless s) : lower s = s.toList :=
  map_toLower_eq fun c hc => .inl (h c hc)

/-- **A caseless text has no second case.** -/
theorem eq_of_lower_eq (h : Caseless s) (hlower : lower s = lower t) : t = s := by
  rw [h.lower_eq] at hlower
  have hsmall : lower t = t.toList := by
    refine map_toLower_eq fun c hc => .inr (h _ ?_)
    rw [hlower]
    exact List.mem_map_of_mem hc
  exact String.toList_injective (hsmall.symm.trans hlower.symm)

/-- A meaning of caseless texts alone does not depend on case. -/
theorem congr {meaning? : String → Option α} (hmeaning : ∀ s a, meaning? s = some a → Caseless s)
    (h : lower s = lower t) : meaning? t = meaning? s := by
  cases hs : meaning? s with
  | some a => rw [(hmeaning s a hs).eq_of_lower_eq h, hs]
  | none =>
    cases ht : meaning? t with
    | none => rfl
    | some a => rw [← ht, ← (hmeaning t a ht).eq_of_lower_eq h.symm, hs]

/-- **A caseless text is no word**, where all words have letters. -/
theorem meaning?_eq_none (h : Caseless s) {words : Vocabulary α}
    (hwords : ∀ entry ∈ words, ¬ Caseless entry.1) : words.meaning? s = none := by
  rw [← Option.not_isSome_iff_eq_none, Option.isSome_iff_exists, words.exists_meaning?_iff]
  rintro ⟨⟨word, meaning⟩, hentry, hword⟩
  refine hwords _ hentry ?_
  rwa [String.toList_injective (hword.trans h.lower_eq)]

theorem of_isNumeral (h : Decimal.IsNumeral s.toList) : Caseless s :=
  fun c hc => lt_of_isDigit (h.2 c hc)

theorem of_spells {n : Int} (h : Decimal.Spells s.toList n) : Caseless s := by
  rcases h with ⟨hnumeral, -⟩ | ⟨digits, htext, hnumeral, -⟩
  · exact of_isNumeral hnumeral
  · intro c hc
    rw [htext] at hc
    rcases List.mem_cons.1 hc with rfl | hc
    · decide
    · exact lt_of_isDigit (hnumeral.2 c hc)

end Caseless

/-! ### The case of letters -/

mutual

/-- The values differ at most in the case of ASCII letters of the texts inside them. -/
inductive Value.Recased : Value → Value → Prop where
  | text {s t : String} (h : lower s = lower t) : Value.Recased (.text s) (.text t)
  | map {fields others : Fields} (h : Fields.Recased fields others) :
    Value.Recased (.map fields) (.map others)
  | same (value : Value) : Value.Recased value value

/-- The maps have the same names, and values that differ at most in the case of letters. -/
inductive Fields.Recased : Fields → Fields → Prop where
  | nil : Fields.Recased .nil .nil
  | cons (name : String) {v w : Value} {rest others : Fields} (h : Value.Recased v w)
    (hrest : Fields.Recased rest others) : Fields.Recased (.cons name v rest) (.cons name w others)

end

theorem Value.Recased.heldAlike (h : v.Recased w) : HeldAlike Value.Recased (some v) (some w) := by
  cases h with
  | text h => exact .single rfl rfl (.text h)
  | map h => exact .maps _ _
  | same => exact .refl .same _

/-- A reader of single values that makes the same of texts in either case. -/
theorem Value.Recased.blind {reader : Reader α}
    (hmap : ∀ inner, reader.meaning? (.map inner) = none)
    (htext : ∀ {s t}, lower s = lower t → reader.meaning? (.text t) = reader.meaning? (.text s))
    (h : v.Recased w) : reader.Blind strict v w := by
  intro _
  cases h with
  | text h => exact htext h
  | map _ => rw [hmap, hmap]
  | same => rfl

namespace Fields.Recased

theorem rel_get? {fields others : Fields} (h : fields.Recased others) (name : String) :
    Option.Rel Value.Recased (fields.get? name) (others.get? name) := by
  cases h with
  | nil => exact .none
  | cons other hvalue hrest =>
    rw [get?, get?]
    split
    · exact .some hvalue
    · exact hrest.rel_get? name

theorem names_eq {fields others : Fields} (h : fields.Recased others) :
    others.names = fields.names := by
  cases h with
  | nil => rfl
  | cons name _ hrest => exact congrArg (name :: ·) hrest.names_eq

theorem alike {fields others : Fields} (h : fields.Recased others) (level : Level) :
    Alike (fun _ _ => Value.Recased) level fields others := by
  -- by recursion on the size of the fields, since a map inside them is smaller
  refine .intro ?_ ?_ fun _ => .inr h.names_eq
  · intro name _
    have hrel := h.rel_get? name
    generalize fields.get? name = first at hrel
    generalize others.get? name = second at hrel
    cases hrel with
    | none => exact .absent
    | some hvalue => exact hvalue.heldAlike
  · intro entry _ inner other hinner hother
    have hrel := h.rel_get? entry.1
    rw [hinner, hother] at hrel
    obtain ⟨hvalue⟩ := hrel
    cases hvalue with
    | map hinside => exact hinside.alike entry.2
    | same => exact Alike.refl (fun _ _ => .same) entry.2 inner
termination_by sizeOf fields
decreasing_by exact Fields.sizeOf_lt_of_get?_map hinner

end Fields.Recased

namespace Value

theorem caseless_of_integer? {n : Int64} (h : (text s).integer? = some n) : Caseless s :=
  .of_spells (Decimal.integer?_eq_some_iff.1 (integer?_text.1 h))

theorem integer?_recased (h : lower s = lower t) : (text t).integer? = (text s).integer? :=
  Caseless.congr (fun _ _ => caseless_of_integer?) h

theorem caseless_of_year? {year : Year} (h : (text s).year? = some year) : Caseless s := by
  rw [year?] at h
  split at h
  · rename_i hsome
    obtain ⟨full, hfull⟩ := Option.isSome_iff_exists.1 hsome
    exact .of_isNumeral (Year.expand?_eq_some_iff.1 hfull).1
  · cases h

theorem year?_recased (h : lower s = lower t) : (text t).year? = (text s).year? :=
  Caseless.congr (fun _ _ => caseless_of_year?) h

theorem unsigned?_recased (h : lower s = lower t) : (text t).unsigned? = (text s).unsigned? := by
  rw [unsigned?, unsigned?, integer?_recased h]

theorem month?_recased (h : lower s = lower t) : (text t).month? = (text s).month? := by
  simp only [month?, text?, Option.bind_some, Vocabulary.meaning?_congr _ h, unsigned?_recased h]

theorem weekday?_recased (h : lower s = lower t) : (text t).weekday? = (text s).weekday? := by
  simp only [weekday?, text?, Option.bind_some, Vocabulary.meaning?_congr _ h, integer?_recased h]

theorem unit?_recased (h : lower s = lower t) : (text t).unit? = (text s).unit? := by
  simp only [unit?, text?, Option.bind_some, CalendarUnit.ofName?, Vocabulary.meaning?_congr _ h]

theorem day?_recased (h : lower s = lower t) : (text t).day? = (text s).day? := by
  rw [day?, day?, h]

theorem yearSince?_recased (century : Int) (h : lower s = lower t) :
    (text t).yearSince? century = (text s).yearSince? century := by
  rw [yearSince?, yearSince?, short?, short?, integer?_recased h]

theorem point?_recased (h : lower s = lower t) : (text t).point? = (text s).point? := by
  rw [point?, point?, h]

end Value

/-- The case of letters is never seen. -/
theorem unseen_recased : Unseen True fun _ _ => Value.Recased where
  kind _ _ _ _ _ h := by cases h <;> rfl
  integer h := h.blind (fun _ => rfl) Value.integer?_recased
  unit h := h.blind (fun _ => rfl) Value.unit?_recased
  weekday h := h.blind (fun _ => rfl) Value.weekday?_recased
  month h := h.blind (fun _ => rfl) Value.month?_recased
  day h := h.blind (fun _ => rfl) Value.day?_recased
  year h := h.blind (fun _ => rfl) Value.year?_recased
  yearSince century _ _ _ h := h.blind (fun _ => rfl) (Value.yearSince?_recased century)
  point h := h.blind (fun _ => rfl) Value.point?_recased

/-- **The case of letters does not matter.**  Fields that differ only in the case of ASCII
letters of texts are read as the same phrase, or refused with the same error. -/
theorem ofFields_eq_of_recased (h : fields.Recased others) (limit : Nat) :
    Phrase.ofFields others limit = Phrase.ofFields fields limit :=
  agrees_readWithin unseen_recased limit limit (h.alike .phrase) (.inl trivial)

/-- After the fourth of September. -/
def inSmallLetters : Fields :=
  .singleton "date" (.map (.singleton "absolute" (.map (.cons "day" (.text "4th")
    (.singleton "month" (.text "sept"))))))

/-- The same in mixed case. -/
def inCapitals : Fields :=
  .singleton "date" (.map (.singleton "absolute" (.map (.cons "day" (.text "4tH")
    (.singleton "month" (.text "SEPT"))))))

theorem ofFields_inCapitals :
    inSmallLetters.Recased inCapitals ∧
    (∀ limit, Phrase.ofFields inCapitals limit = Phrase.ofFields inSmallLetters limit) ∧
    Phrase.ofFields inCapitals 1 =
      .ok (.fromPhrase ⟨none, none⟩ (.calendar ⟨some 9, some 4, none⟩)) := by
  have hday : (Value.text "4th").Recased (.text "4tH") := .text (by decide)
  have hmonth : (Value.text "sept").Recased (.text "SEPT") := .text (by decide)
  have hrecased : inSmallLetters.Recased inCapitals :=
    .cons _ (.map (.cons _ (.map (.cons _ hday (.cons _ hmonth .nil))) .nil)) .nil
  exact ⟨hrecased, ofFields_eq_of_recased hrecased, rfl⟩

/-! ### Integers as digits -/

namespace Decimal

variable {text : List Char}

/-- The text writes an integer in digits, any number of them zeros in front, and with a minus
sign exactly where the integer is negative. -/
def Writes (text : List Char) (n : Int) : Prop :=
  (0 ≤ n ∧ IsNumeral text ∧ n = value text) ∨
    ∃ digits, n < 0 ∧ text = '-' :: digits ∧ IsNumeral digits ∧ n = -value digits

theorem Writes.spells {n : Int} (h : Writes text n) : Spells text n := by
  rcases h with ⟨-, h⟩ | ⟨digits, -, h⟩
  · exact .inl h
  · exact .inr ⟨digits, h⟩

theorem Writes.natural?_eq {n : Int} (h : Writes text n) (hn : 0 ≤ n) :
    natural? text = some n.toNat := by
  rcases h with ⟨-, hnumeral, hvalue⟩ | ⟨digits, hneg, -⟩
  · refine natural?_eq_some_iff.2 ⟨hnumeral, ?_⟩
    omega
  · omega

theorem writes_of_natural? {n : Nat} (h : natural? text = some n) : Writes text n := by
  obtain ⟨hnumeral, rfl⟩ := natural?_eq_some_iff.1 h
  exact .inl ⟨Int.natCast_nonneg _, hnumeral, rfl⟩

theorem writes_minus {n : Nat} (h : natural? text = some n) (hn : 0 < n) :
    Writes ('-' :: text) (-n) := by
  obtain ⟨hnumeral, rfl⟩ := natural?_eq_some_iff.1 h
  exact .inr ⟨text, by omega, rfl, hnumeral, rfl⟩

end Decimal

/-- The second value is the first one or writes it in digits, where the field may hold a
number. -/
inductive Respelled : Level → String → Value → Value → Prop where
  | same (level : Level) (name : String) (value : Value) : Respelled level name value value
  | digits {level : Level} {name : String} (hname : name ∈ level.numbers) {n : Int64} {s : String}
    (h : Decimal.Writes s.toList n.toInt) : Respelled level name (.integer n) (.text s)

/-- In a field that holds no number nothing is respelled. -/
theorem Respelled.eq_of_notMem {level : Level} {name : String} (h : Respelled level name v w)
    (hname : name ∉ level.numbers) : v = w := by
  cases h with
  | same => rfl
  | digits hmem _ => exact absurd hmem hname

/-- A reader of single values that takes integers also as digits. -/
theorem Respelled.blind {level : Level} {name : String} {reader : Reader α}
    (hdigits : ∀ {n : Int64} {s a}, Decimal.Writes s.toList n.toInt →
      reader.meaning? (.integer n) = some a → reader.meaning? (.text s) = some a)
    (h : Respelled level name v w) : reader.Blind False v w := by
  rintro (⟨⟨⟩⟩ | ⟨a, ha⟩)
  cases h with
  | same => rfl
  | digits _ hwrites => rw [ha, hdigits hwrites ha]

namespace Value

variable {n : Int64}

theorem integer?_of_writes (h : Decimal.Writes s.toList n.toInt) : (text s).integer? = some n :=
  integer?_text.2 (Decimal.integer?_eq_some_iff.2 h.spells)

theorem unsigned?_of_writes (h : Decimal.Writes s.toList n.toInt) :
    (text s).unsigned? = (integer n).unsigned? := by
  rw [unsigned?, integer?_of_writes h]
  rfl

theorem month?_of_writes (h : Decimal.Writes s.toList n.toInt) :
    (text s).month? = (integer n).month? := by
  have hwords : ∀ entry ∈ CalendarPhrase.words, ¬ Caseless entry.1 := by decide
  have hword : CalendarPhrase.words.meaning? s = none :=
    (Caseless.of_spells h.spells).meaning?_eq_none hwords
  rw [month?, text?, Option.bind_some, hword, unsigned?_of_writes h]
  rfl

theorem weekday?_of_writes (h : Decimal.Writes s.toList n.toInt) :
    (text s).weekday? = (integer n).weekday? := by
  have hwords : ∀ entry ∈ WeekdayPhrase.words, ¬ Caseless entry.1 := by decide
  have hword : WeekdayPhrase.words.meaning? s = none :=
    (Caseless.of_spells h.spells).meaning?_eq_none hwords
  rw [weekday?, text?, Option.bind_some, hword, integer?_of_writes h]
  rfl

/-- Digits are an ordinal without a suffix. -/
theorem day?_of_writes {day : UInt32} (h : Decimal.Writes s.toList n.toInt)
    (hday : (integer n).day? = some day) : (text s).day? = some day := by
  have hn : n.toInt = day.toNat := (Checked.uint32?_eq_some_iff.1 hday).symm
  rw [day?_text, (Caseless.of_spells h.spells).lower_eq, Decimal.ordinal?_eq_some_iff]
  refine ⟨s.toList, "", List.mem_cons_self, (List.append_nil _).symm, ?_⟩
  rw [h.natural?_eq (by omega), hn]
  rfl

theorem yearSince?_of_writes (century : Int) (h : Decimal.Writes s.toList n.toInt) :
    (text s).yearSince? century = (integer n).yearSince? century := by
  rw [yearSince?, yearSince?, short?, integer?_of_writes h]
  rfl

end Value

/-- Where an integer is accepted, digits in its place are not seen. -/
theorem unseen_respelled : Unseen False Respelled where
  kind := nofun
  integer h := h.blind fun hwrites hread => (Value.integer?_of_writes hwrites).trans hread
  unit h := .of_eq (h.eq_of_notMem (by decide))
  weekday h := h.blind fun hwrites hread => (Value.weekday?_of_writes hwrites).trans hread
  month h := h.blind fun hwrites hread => (Value.month?_of_writes hwrites).trans hread
  day h := h.blind fun hwrites hread => Value.day?_of_writes hwrites hread
  year h := .of_eq (h.eq_of_notMem (by decide))
  yearSince century _ _ _ h :=
    h.blind fun hwrites hread => (Value.yearSince?_of_writes century hwrites).trans hread
  point h := .of_eq (h.eq_of_notMem (by decide))

/-- **Integers may be given as digits.**  Where fields are accepted, they are accepted as the
same phrase with digits in place of any of their integers, at any depth. -/
theorem ofFields_eq_of_respelled (h : Alike Respelled .phrase fields others) {limit : Nat}
    {phrase : Phrase} (hread : Phrase.ofFields fields limit = .ok phrase) :
    Phrase.ofFields others limit = .ok phrase :=
  (agrees_readWithin unseen_respelled limit limit h (.inr ⟨phrase, hread⟩)).trans hread

/-- Friday of last week. -/
def lastFriday : Fields := .ofList [("weekday", .integer 5), ("distance", .integer (-1))]

/-- Two weeks before Friday of last week. -/
def beforeLastFriday : Fields :=
  .ofList [("duration", .map (.singleton "weeks" (.integer 2))), ("direction", .integer (-1)),
    ("date", .map (.singleton "absolute" (.map lastFriday)))]

/-- The same in digits. -/
def beforeLastFridayInDigits : Fields :=
  let friday := (lastFriday.insert "weekday" (.text "05")).insert "distance" (.text "-1")
  let date := (Fields.singleton "absolute" (.map lastFriday)).insert "absolute" (.map friday)
  (beforeLastFriday.insert "direction" (.text "-001")).insert "date" (.map date)

theorem ofFields_beforeLastFridayInDigits :
    Alike Respelled .phrase beforeLastFriday beforeLastFridayInDigits ∧
    Phrase.ofFields beforeLastFriday 1 =
      .ok (.fromPhrase ⟨some (.single .week 2), some (-1)⟩ (.weekday ⟨some 5, some (-1)⟩)) ∧
    Phrase.ofFields beforeLastFridayInDigits 1 =
      .ok (.fromPhrase ⟨some (.single .week 2), some (-1)⟩ (.weekday ⟨some 5, some (-1)⟩)) := by
  have hsame : ∀ level fields, Alike Respelled level fields fields := Alike.refl Respelled.same
  have hfive : Decimal.natural? "05".toList = some 5 := rfl
  have hone : Decimal.natural? "1".toList = some 1 := rfl
  have hlong : Decimal.natural? "001".toList = some 1 := rfl
  have hweekday : Respelled .absolute "weekday" (.integer 5) (.text "05") :=
    .digits (by decide) (Decimal.writes_of_natural? hfive)
  have hdistance : Respelled .absolute "distance" (.integer (-1)) (.text "-1") :=
    .digits (by decide) (Decimal.writes_minus hone Nat.zero_lt_one)
  have hdirection : Respelled .phrase "direction" (.integer (-1)) (.text "-001") :=
    .digits (by decide) (Decimal.writes_minus hlong Nat.zero_lt_one)
  have hfriday : Alike Respelled .absolute lastFriday _ :=
    ((hsame _ _).insert_single (by decide) rfl rfl rfl hweekday).insert_single (by decide) rfl rfl
      rfl hdistance
  have hinside : ("absolute", Level.absolute) ∈ Level.phrase.inside := by simp [Level.inside]
  have hdate : Alike Respelled .phrase (.singleton "absolute" (.map lastFriday)) _ :=
    (hsame _ _).insert_map hinside rfl hfriday
  have hall : Alike Respelled .phrase beforeLastFriday beforeLastFridayInDigits := by
    refine ((hsame _ _).insert_single (by decide) rfl rfl rfl hdirection).insert_map ?_ rfl hdate
    simp [Level.inside]
  have hread : Phrase.ofFields beforeLastFriday 1 =
      .ok (.fromPhrase ⟨some (.single .week 2), some (-1)⟩ (.weekday ⟨some 5, some (-1)⟩)) := rfl
  exact ⟨hall, hread, ofFields_eq_of_respelled hall hread⟩

end SpokenDate
