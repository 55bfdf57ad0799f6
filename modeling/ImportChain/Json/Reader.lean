/-
ImportChain.Json.Reader — JSON text to values.

A `Selection` says which parts of a text are read. A part that is not
selected has to be well written, and that is all: its numbers may be out of
range, its strings may hold single surrogates, and it may nest as deep as it
likes. What is read nests at most 127 deep.

Selected values have the fields of their objects as they were written,
repeated keys included; `ofText?` reads everything and settles the fields.
-/
import ImportChain.Json.Node

namespace ImportChain.Json

/-- Which parts of a text are read, told by the kind of place where a part
stands. -/
structure Selection (κ : Type) where
  /-- The place under a key of an object, unless it is passed over. -/
  field? : κ → String → Option κ
  /-- The place of an item of an array. -/
  item : κ → Nat → κ

def Selection.all : Selection Unit where
  field? _ _ := some ()
  item _ _ := ()

namespace Node

/-- How many containers may stand inside each other. -/
def depthLimit : Nat := 127

mutual

/-- The value of what is selected of a tree, at most `depth` deep. -/
def value? {κ : Type} (selection : Selection κ) (depth : Nat) (place : κ) : Node → Option Json
  | .leaf value => value
  | .arr items =>
    if 0 < depth then (items? selection (depth - 1) place 0 items).map .arr else none
  | .obj fields =>
    if 0 < depth then (fields? selection (depth - 1) place fields).map .obj else none

/-- The values of items, the first of which has the number `n`. -/
def items? {κ : Type} (selection : Selection κ) (depth : Nat) (place : κ) (n : Nat) :
    List Node → Option (List Json)
  | [] => some []
  | item :: rest => do
    let value ← value? selection depth (selection.item place n) item
    let values ← items? selection depth place (n + 1) rest
    pure (value :: values)

/-- The selected fields. The keys of all fields have to be texts. -/
def fields? {κ : Type} (selection : Selection κ) (depth : Nat) (place : κ) :
    List (Option String × Node) → Option (List (String × Json))
  | [] => some []
  | (none, _) :: _ => none
  | (some key, node) :: rest =>
    match selection.field? place key with
    | none => fields? selection depth place rest
    | some inner => do
      let value ← value? selection depth inner node
      let values ← fields? selection depth place rest
      pure ((key, value) :: values)

end

end Node

/-- The value of what is selected of a text, as it is written. -/
def asWritten? {κ : Type} (selection : Selection κ) (place : κ) (text : String) : Option Json := do
  (← Node.ofText? text).value? selection Node.depthLimit place

/-- The value of a text; of two fields with one key the later counts. -/
def ofText? (text : String) : Option Json := (asWritten? .all () text).map settled

end ImportChain.Json
