/-
ImportChain.Json.Schema — reading the fields of a record out of JSON.

A record is written as an object or as an array, whose items fill the
fields in order. A field may be missing; that it occurs twice is an error.
Where `null` counts as missing the field is `optional?`, otherwise it is
`required?` or `defaulted?`.

Values that are kept as JSON are settled on the way in.
-/
import ImportChain.Json.Basic

namespace ImportChain.Json.Schema

/-- What was read for each field that is written, in order. -/
abbrev Written (α : Type) := List (String × α)

def occurrences {α : Type} (fields : Written α) (key : String) : List α :=
  fields.filterMap fun (k, v) => if k = key then some v else none

/-- The field under a key, if it is written exactly once. -/
def once? {α : Type} (fields : Written α) (key : String) : Option α :=
  match occurrences fields key with
  | [v] => some v
  | _ => none

/-- The field under a key; missing and `null` are nothing. -/
def optional? {α : Type} (read? : Json → Option α) (fields : Written Json) (key : String) :
    Option (Option α) :=
  match occurrences fields key with
  | [] => some none
  | [.null] => some none
  | [v] => (read? v).map some
  | _ => none

/-- The field under a key, or `value` if it is missing. -/
def defaulted? {α β : Type} (value : β) (read? : α → Option β) (fields : Written α)
    (key : String) : Option β :=
  match occurrences fields key with
  | [] => some value
  | [v] => read? v
  | _ => none

def any? (v : Json) : Option Json := some v.settled

end ImportChain.Json.Schema
