/-
ImportChain.Config.Basic — configurations and their JSON form.

A configuration is a record with defaults for every field. Read from text,
a known key that occurs twice is an error; `ofText?` therefore reads the
text as it is written. What stands under a key that a configuration or a
rule does not know is passed over unread.
-/
import ImportChain.Json.Reader
import ImportChain.Rule.Schema
import ImportChain.Rule.Defaults
import ImportChain.Rule.Set

namespace ImportChain

open Json.Schema

structure Config where
  /-- The directory that requests without one of their own are made in. -/
  context : String := ""
  /-- The rules after the default ones. -/
  rules : List Rule := []
  /-- Whether the default rules come first. -/
  defaultRules : Bool := true
  /-- Whether modules are remembered by their dependencies. -/
  unsafeCache : Bool := true
  /-- The options for resolving resources. -/
  resolve : Json := .empty
  deriving Inhabited

namespace Config

def fieldNames : List String := ["context", "rules", "defaultRules", "unsafeCache", "resolve"]

def ofFields? (fields : Written Json) : Option Config := do
  let context ← defaulted? "" Json.str? fields "context"
  let rules ← defaulted? [] rulesOfJson? fields "rules"
  let defaultRules ← defaulted? true Json.bool? fields "defaultRules"
  let unsafeCache ← defaulted? true Json.bool? fields "unsafeCache"
  let resolve ← defaulted? .empty any? fields "resolve"
  pure { context, rules, defaultRules, unsafeCache, resolve }

def ofJson? : Json → Option Config
  | .obj fields => ofFields? fields
  | .arr items =>
    if items.length ≤ fieldNames.length then ofFields? (fieldNames.zip items) else none
  | _ => none

/-- What stands in a place of a configuration's text. -/
inductive Place where
  | config
  | rules
  | rule
  /-- Anything else; all of it is read. -/
  | value
  deriving Repr, DecidableEq

/-- The fields of the record in a place, if there is one. -/
def Place.fieldNames? : Place → Option (List String)
  | .config => some Config.fieldNames
  | .rule => some Rule.fieldNames
  | _ => none

/-- What stands in a field of a record. -/
def Place.ofField (name : String) : Place :=
  if name = "rules" ∨ name = "oneOf" then .rules else .value

/-- The parts of a configuration's text that are read. -/
def selection : Json.Selection Place where
  field? place key := match place.fieldNames? with
    | some names => if key ∈ names then some (.ofField key) else none
    | none => some .value
  item place n := match place.fieldNames? with
    | some names => (names[n]?.map Place.ofField).getD .value
    | none => if place = .rules then .rule else .value

def ofText? (text : String) : Option Config :=
  (Json.asWritten? selection .config text).bind ofJson?

def toJson (c : Config) : Json :=
  .obj [("context", .str c.context), ("defaultRules", .bool c.defaultRules),
    ("resolve", c.resolve), ("rules", .arr (rulesToJson c.rules)),
    ("unsafeCache", .bool c.unsafeCache)]

/-- The configured rules, after the default ones if these are wanted. -/
def allRules (c : Config) : List Rule :=
  (if c.defaultRules then ImportChain.defaultRules else []) ++ c.rules

def ruleSet (c : Config) : Except RuleError RuleSet := RuleSet.compile c.allRules

end Config

end ImportChain
