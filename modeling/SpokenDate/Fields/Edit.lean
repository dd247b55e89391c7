/-
Edits: the ways in which a field map comes about.

A map is built by setting fields one after the other, by collecting entries, by clearing
it, and by wrapping it into a map of its own.

* **`build_append`**: a history of edits is the map of its first part, edited by the rest.
-/
import SpokenDate.Fields.Basic

namespace SpokenDate

/-- One change of a field map. -/
inductive Edit where
  /-- Sets one field. -/
  | insert (name : String) (value : Value)
  /-- Starts over from entries, of which the last with a name counts. -/
  | collect (entries : List (String × Value))
  /-- Starts over from nothing. -/
  | clear
  /-- Makes the whole map the value of the only field of a new one. -/
  | wrap (name : String)

namespace Fields

def edit (fields : Fields) : Edit → Fields
  | .insert name value => fields.insert name value
  | .collect entries => ofList entries
  | .clear => nil
  | .wrap name => singleton name (.map fields)

/-- The map that a history of edits leads to. -/
def build (edits : List Edit) : Fields := edits.foldl edit nil

theorem build_append (edits more : List Edit) :
    build (edits ++ more) = more.foldl edit (build edits) :=
  List.foldl_append

end Fields

end SpokenDate
