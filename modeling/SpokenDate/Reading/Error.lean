/-
Why fields cannot be read as a phrase.

An error is a cause together with what is needed to name it; its wording is fixed by
`ReadError.message` alone.
-/
import SpokenDate.Fields.Basic

namespace SpokenDate

/-- What a field should have held. -/
inductive Expectation where
  | integer
  | map
  | month
  | day
  | year
  | digits
  | unit
  | weekday
  | start
  deriving DecidableEq, Repr

/-- The words for an expectation in messages. -/
def Expectation.text : Expectation → String
  | integer => "integer"
  | map => "map"
  | month => "month number or name"
  | day => "day number or ordinal"
  | year => "year"
  | digits => "digits"
  | unit => "unit name"
  | weekday => "weekday index or name"
  | start => "`now`, a date or a date expression"

/-- The causes for which fields are refused. -/
inductive ReadError where
  /-- None of the fields says anything about a date. -/
  | noDateFields (names : List String)
  /-- More than one of the three forms of a phrase is present. -/
  | exclusiveForms
  /-- Fields of several groups, of which a form takes one, are present. -/
  | mixedGroups (groups : List (List String))
  /-- A field holds a value that its reader refuses. -/
  | invalidField (name : String) (expected : Expectation) (found : Kind)
  /-- More phrases are nested inside each other than the limit allows. -/
  | tooDeep (limit : Nat)
  deriving DecidableEq, Repr

/-- The wording of an error. -/
def ReadError.message : ReadError → String
  | noDateFields names =>
    "Unrecognized parse result: no date fields among [" ++ ", ".intercalate names ++ "]"
  | exclusiveForms =>
    "Unrecognized parse result: relative, absolute and anchored fields are mutually exclusive"
  | mixedGroups groups =>
    "Unrecognized parse result: fields of ["
      ++ "], [".intercalate (groups.map fun names => "/".intercalate names)
      ++ "] can not be combined"
  | invalidField name expected found =>
    "Invalid field `" ++ name ++ "`: expected " ++ expected.text ++ ", found " ++ found.name
  | tooDeep limit => "Date expression nested deeper than " ++ toString limit ++ " levels"

end SpokenDate
