/-
Fields: the named values that a phrase is handed over in.

A phrase arrives as a finite map from field names to values, and a value may again be
such a map.  The map is kept as a chain of entries with names in increasing order, so
that equal maps are equal chains and listing the names needs no sorting.

* **`get?_insert_self`**, **`get?_insert_of_ne`**: inserting changes the value of one
  name and of no other, whatever was there before;
* **`contains_iff`**: a name is present exactly when it has a value;
* **`mem_names_iff`**: the names that are listed are those that have a value;
* **`isEmpty_iff`**: a map is empty exactly when no name has a value.

Design notes: values and maps are one mutual definition instead of a list nested in a
type, so that functions on them are structural and equality is derived.
-/
import SpokenDate.Calendar.Date

namespace SpokenDate

mutual

/-- The value of a field. -/
inductive Value where
  | integer (n : Int64)
  | text (s : String)
  | flag (b : Bool)
  | date (d : Date)
  | map (fields : Fields)
  deriving DecidableEq

/-- A finite map from names to values, the names in increasing order. -/
inductive Fields where
  | nil
  | cons (name : String) (value : Value) (rest : Fields)
  deriving DecidableEq

end

/-- The kinds of values. -/
inductive Kind where
  | integer
  | text
  | flag
  | date
  | map
  deriving DecidableEq, Repr

/-- The word for a kind in messages. -/
def Kind.name : Kind → String
  | integer => "integer"
  | text => "text"
  | flag => "flag"
  | date => "date"
  | map => "map"

namespace Value

def kind : Value → Kind
  | integer _ => .integer
  | text _ => .text
  | flag _ => .flag
  | date _ => .date
  | map _ => .map

def text? : Value → Option String
  | text s => some s
  | _ => none

def map? : Value → Option Fields
  | map fields => some fields
  | _ => none

end Value

namespace Fields

/-- The value of the field called `name`. -/
def get? (name : String) : Fields → Option Value
  | nil => none
  | cons other value rest => if name = other then some value else rest.get? name

def contains (fields : Fields) (name : String) : Bool := (fields.get? name).isSome

/-- Sets the field called `name`, replacing the value it had. -/
def insert (name : String) (value : Value) : Fields → Fields
  | nil => cons name value nil
  | cons other old rest =>
    if name < other then cons name value (cons other old rest)
    else if name = other then cons name value rest
    else cons other old (rest.insert name value)

/-- The map of the given entries, of which the last with a name counts. -/
def ofList (entries : List (String × Value)) : Fields :=
  entries.foldl (fun fields (name, value) => fields.insert name value) nil

/-- The map with one field. -/
def singleton (name : String) (value : Value) : Fields := cons name value nil

/-- The entries in the order of their names. -/
def toList : Fields → List (String × Value)
  | nil => []
  | cons name value rest => (name, value) :: rest.toList

/-- The names in increasing order. -/
def names (fields : Fields) : List String := fields.toList.map Prod.fst

def isEmpty : Fields → Bool
  | nil => true
  | cons _ _ _ => false

@[simp] theorem get?_insert_self (fields : Fields) (name : String) (value : Value) :
    (fields.insert name value).get? name = some value := by
  match fields with
  | nil => simp only [insert, get?, if_true]
  | cons first old rest =>
    rw [insert]
    split
    · simp only [get?, if_true]
    · split
      · simp only [get?, if_true]
      · rename_i h
        rw [get?, if_neg h]
        exact get?_insert_self rest name value

theorem get?_insert_of_ne (fields : Fields) {name other : String} (value : Value)
    (h : other ≠ name) : (fields.insert name value).get? other = fields.get? other := by
  match fields with
  | nil => simp only [insert, get?, if_neg h]
  | cons first old rest =>
    rw [insert]
    split
    · rw [get?, if_neg h]
    · split
      · rename_i heq
        rw [get?, get?, if_neg h, if_neg (heq ▸ h)]
      · rw [get?, get?, get?_insert_of_ne rest value h]

/-- The names that are listed are those that have a value. -/
theorem mem_names_iff : ∀ {fields : Fields} {name : String},
    name ∈ fields.names ↔ ∃ value, fields.get? name = some value
  | nil, name => by simp [names, toList, get?]
  | cons first value rest, name => by
    show name ∈ first :: rest.names ↔ _
    rw [List.mem_cons, get?]
    by_cases h : name = first
    · simp [h]
    · rw [if_neg h, ← mem_names_iff, or_iff_right h]

variable {fields : Fields} {name : String}

theorem contains_iff : fields.contains name = true ↔ ∃ value, fields.get? name = some value :=
  Option.isSome_iff_exists

/-- A map is empty exactly when no name has a value. -/
theorem isEmpty_iff : fields.isEmpty = true ↔ ∀ name, fields.get? name = none := by
  cases fields with
  | nil => exact ⟨fun _ _ => rfl, fun _ => rfl⟩
  | cons first value rest =>
    constructor
    · intro h
      cases h
    · intro h
      have hfirst := h first
      rw [get?, if_pos rfl] at hfirst
      cases hfirst

end Fields

end SpokenDate
