/-
ImportChain.Rule.Settings — settings that rules contribute, the later over
the earlier.

An object laid over an object is merged into it field by field, at every
depth; any other value replaces what was there. `mergeValue` states this
for one place, and both the settings themselves and the merging of two
objects are made from it.
-/
import ImportChain.Json.Basic

namespace ImportChain

namespace Json

mutual

/-- What is at a place after a new value has come. -/
def mergeValue (old : Option Json) : Json → Json
  | .obj incoming =>
    match old with
    | some (.obj existing) => .obj (mergeFields existing incoming)
    | _ => .obj incoming
  | value => value

/-- The fields of an object after those of another have come, one by one. -/
def mergeFields (existing : List (String × Json)) : List (String × Json) → List (String × Json)
  | [] => existing
  | (key, value) :: rest =>
    mergeFields (KeyMap.insert existing key (mergeValue (KeyMap.get? existing key) value)) rest

end

end Json

/-- Settings by name. -/
structure Settings where
  values : KeyMap Json := []
  deriving DecidableEq, Inhabited

namespace Settings

def empty : Settings := ⟨[]⟩

/-- The settings after one more contribution. -/
def apply (s : Settings) (key : String) (value : Json) : Settings :=
  ⟨s.values.insert key (Json.mergeValue (s.values.get? key) value)⟩

def get? (s : Settings) (key : String) : Option Json := s.values.get? key

/-- The text of a setting that is text. -/
def str? (s : Settings) (key : String) : Option String := (s.get? key).bind Json.str?

def keys (s : Settings) : List String := s.values.keys

def isEmpty (s : Settings) : Bool := s.values.isEmpty

def toJson (s : Settings) : Json := .obj s.values

/-- All contributions, one after the other. -/
def applyAll (s : Settings) (steps : List (String × Json)) : Settings :=
  steps.foldl (fun s (key, value) => s.apply key value) s

end Settings

end ImportChain
