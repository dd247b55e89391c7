/-
Reading single fields, and telling groups of fields apart.

A field that is absent is no error.  A field that is present has to hold a value that its
reader accepts.

* **`read_eq_ok_none_iff`**, **`read_eq_ok_some_iff`**, **`read_eq_error_iff`**: reading
  finds nothing exactly when the field is absent, a meaning exactly when the reader gives
  one, and fails exactly when the reader refuses the value that is there.
-/
import SpokenDate.Reading.Error
import SpokenDate.Reading.Token

namespace SpokenDate

variable {α : Type}

/-- A meaning of values, and what it expects of them. -/
structure Reader (α : Type) where
  meaning? : Value → Option α
  expected : Expectation

namespace Reader

def integer : Reader Int64 := ⟨Value.integer?, .integer⟩

def map : Reader Fields := ⟨Value.map?, .map⟩

def month : Reader UInt32 := ⟨Value.month?, .month⟩

def day : Reader UInt32 := ⟨Value.day?, .day⟩

def weekday : Reader Int64 := ⟨Value.weekday?, .weekday⟩

def unit : Reader CalendarUnit := ⟨Value.unit?, .unit⟩

def year : Reader Year := ⟨Value.year?, .year⟩

/-- Years counted from the start of a century. -/
def yearSince (century : Int) : Reader Year := ⟨Value.yearSince? century, .digits⟩

def point : Reader Point := ⟨Value.point?, .start⟩

end Reader

/-- Names of which one form of phrase takes any, and how that form is read. -/
structure FieldGroup (α : Type) where
  names : List String
  read : Fields → Except ReadError α

namespace Fields

/-- The meaning of the field called `name`, if it is present. -/
def read (fields : Fields) (name : String) (reader : Reader α) :
    Except ReadError (Option α) :=
  match fields.get? name with
  | none => .ok none
  | some value =>
    match reader.meaning? value with
    | some a => .ok (some a)
    | none => .error (.invalidField name reader.expected value.kind)

/-- Whether any of the names is present. -/
def containsAny (fields : Fields) (names : List String) : Bool := names.any fields.contains

/-- Reads the fields by the one group of which a name is present, or by `otherwise` where
none is.  Fields of two groups side by side are refused. -/
def readSole (fields : Fields) (groups : List (FieldGroup α))
    (otherwise : Fields → Except ReadError α) : Except ReadError α :=
  match groups.filter fun group => fields.containsAny group.names with
  | [] => otherwise fields
  | [group] => group.read fields
  | present => .error (.mixedGroups (present.map FieldGroup.names))

variable {fields : Fields} {name : String} {reader : Reader α}

theorem read_eq_ok_none_iff :
    fields.read name reader = .ok none ↔ fields.get? name = none := by
  rw [read]
  cases fields.get? name with
  | none => simp only
  | some value => cases h : reader.meaning? value <;> simp [h]

theorem read_eq_ok_some_iff {a : α} :
    fields.read name reader = .ok (some a) ↔
      ∃ value, fields.get? name = some value ∧ reader.meaning? value = some a := by
  rw [read]
  cases fields.get? name with
  | none => simp only [Except.ok.injEq, reduceCtorEq, false_and, exists_false]
  | some value => cases h : reader.meaning? value <;> simp [h]

theorem read_eq_error_iff {error : ReadError} :
    fields.read name reader = .error error ↔
      ∃ value, fields.get? name = some value ∧ reader.meaning? value = none ∧
        error = .invalidField name reader.expected value.kind := by
  rw [read]
  cases fields.get? name with
  | none => simp only [reduceCtorEq, false_and, exists_false]
  | some value =>
    cases h : reader.meaning? value <;> simp [h, eq_comm]

end Fields

end SpokenDate
