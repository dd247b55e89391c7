/-
Levels: the kinds of maps that fields are made of.

A map of fields is read for a phrase, for an offset, for the counts of a duration, for an
absolute date or for a year in its century.  Each of these levels knows some names and looks
for maps under some of them.

* **`names`**: the vocabulary of a level;
* **`inside`**: the levels of the maps that a level looks for;
* **`groups`**: the fields of a level that exclude each other;
* **`numbers`**: the part of the vocabulary under which numbers are looked for.
-/

namespace SpokenDate

/-- The kinds of maps that fields are made of. -/
inductive Level where
  /-- The outermost map, and a map called `date`. -/
  | phrase
  /-- A map called `relative`. -/
  | offset
  /-- A map called `duration`. -/
  | units
  /-- A map called `absolute`. -/
  | absolute
  /-- A map called `year`. -/
  | century

namespace Level

/-- The names of the fields of a level. -/
def names : Level → List String
  | phrase => ["relative", "absolute", "duration", "direction", "date"]
  | offset => ["duration", "direction", "num", "type", "days", "weeks", "months", "years"]
  | units => ["days", "weeks", "months", "years"]
  | absolute => ["weekday", "distance", "month", "day", "year"]
  | century => ["year20", "year19", "year"]

/-- The fields that may hold a map, and the levels of these maps. -/
def inside : Level → List (String × Level)
  | phrase => [("relative", offset), ("absolute", absolute), ("duration", units), ("date", phrase)]
  | offset => [("duration", units)]
  | absolute => [("year", century)]
  | _ => []

/-- The groups of which a level takes the fields of one at most. -/
def groups : Level → List (List String)
  | phrase => [["relative"], ["absolute"], ["duration", "direction", "date"]]
  | offset => [["duration", "direction"], ["num", "type"], ["days", "weeks", "months", "years"]]
  | absolute => [["weekday", "distance"], ["month", "day", "year"]]
  | _ => []

/-- The fields of a level that may hold a number. -/
def numbers : Level → List String
  | phrase => ["direction"]
  | offset => ["direction", "num", "days", "weeks", "months", "years"]
  | units => ["days", "weeks", "months", "years"]
  | absolute => ["weekday", "distance", "month", "day"]
  | century => ["year20", "year19", "year"]

theorem mem_names_of_inside (level : Level) {name : String} {deeper : Level}
    (h : (name, deeper) ∈ level.inside) : name ∈ level.names := by
  cases level <;> simp only [inside, names, List.mem_cons, List.not_mem_nil, or_false,
    Prod.mk.injEq] at h ⊢ <;> grind

/-- Under one name a level looks for maps of one kind. -/
theorem eq_of_inside (level : Level) {name : String} {deeper other : Level}
    (h : (name, deeper) ∈ level.inside) (h' : (name, other) ∈ level.inside) : deeper = other := by
  cases level <;> simp only [inside, List.mem_cons, List.not_mem_nil, or_false,
    Prod.mk.injEq] at h h' <;> grind

end Level

end SpokenDate
