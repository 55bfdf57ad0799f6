/-
ImportChain.Rule.Schema — rules and conditions as JSON.

A condition is a text, a list, or an object with one of the keys `regex`,
`and`, `or` and `not`; the first of these that fits decides, and other keys
are ignored. A rule is a record; keys it does not know are ignored.

Reading recurses over the JSON value: the fields of an object are read
before it is known which of them count, so that the recursion is plain.
-/
import ImportChain.Rule.Basic
import ImportChain.Json.Schema

namespace ImportChain

open Json.Schema

/-! ## Conditions -/

/-- The condition that an object writes, from its fields read as conditions. -/
def Condition.ofFields? (fields : Written (Option Condition)) : Option Condition :=
  match once? fields "regex" with
  | some (some (.beginsWith pattern)) => some (.regex pattern)
  | _ =>
    match once? fields "and" with
    | some (some (.list parts)) => some (.all parts)
    | _ =>
      match once? fields "or" with
      | some (some (.list parts)) => some (.any parts)
      | _ =>
        match once? fields "not" with
        | some (some part) => some (.not part)
        | _ => none

mutual

/-- The condition that a value writes. -/
def Condition.ofJson? : Json → Option Condition
  | .str text => some (.beginsWith text)
  | .arr items => (conditionsOfItems? items).map .list
  | .obj fields => Condition.ofFields? (conditionsOfFields fields)
  | _ => none

def conditionsOfItems? : List Json → Option (List Condition)
  | [] => some []
  | item :: rest => do
    let first ← Condition.ofJson? item
    let others ← conditionsOfItems? rest
    pure (first :: others)

/-- Each field with the condition that its value writes, if it does. -/
def conditionsOfFields : List (String × Json) → Written (Option Condition)
  | [] => []
  | (key, value) :: rest => (key, Condition.ofJson? value) :: conditionsOfFields rest

end

mutual

def Condition.toJson : Condition → Json
  | .beginsWith text => .str text
  | .regex pattern => .obj [("regex", .str pattern)]
  | .all parts => .obj [("and", .arr (conditionsToJson parts))]
  | .any parts => .obj [("or", .arr (conditionsToJson parts))]
  | .not part => .obj [("not", Condition.toJson part)]
  | .list parts => .arr (conditionsToJson parts)

def conditionsToJson : List Condition → List Json
  | [] => []
  | part :: rest => Condition.toJson part :: conditionsToJson rest

end

/-! ## Loaders and positions -/

/-- The position that a value names: by its name, or by an object with the
name as its only key and nothing under it. -/
def Enforce.ofJson? (value : Json) : Option Enforce :=
  let named? (name : String) : Option Enforce :=
    [Enforce.pre, .normal, .post].find? (·.text = name)
  match value with
  | .str name => named? name
  | .obj [(name, .null)] => named? name
  | _ => none

def UseItem.ofJson? : Json → Option UseItem
  | .str text => some (.request text)
  | .obj fields => do
    let name ← (once? fields "loader").bind Json.str?
    let options ← optional? any? fields "options"
    let ident ← optional? Json.str? fields "ident"
    pure (.loader name options ident)
  | _ => none

/-- The entries that a value writes: one, or a list of them. -/
def Use.ofJson? (value : Json) : Option Use :=
  match UseItem.ofJson? value with
  | some item => some (.one item)
  | none =>
    match value with
    | .arr items => (items.mapM UseItem.ofJson?).map .many
    | _ => none

def UseItem.toJson : UseItem → Json
  | .request text => .str text
  | .loader name options ident =>
    .obj [("ident", Json.ofStr? ident), ("loader", .str name), ("options", Json.orNull options)]

def Use.toJson : Use → Json
  | .one item => item.toJson
  | .many items => .arr (items.map UseItem.toJson)

/-! ## Rules -/

/-- The fields of a rule, in the order in which an array fills them. -/
def Rule.fieldNames : List String :=
  ["test", "include", "exclude", "resource", "realResource", "resourceQuery", "issuer", "compiler",
    "loader", "options", "use", "enforce", "rules", "oneOf", "type", "parser", "generator",
    "resolve", "sideEffects"]

/-- What a rule says by itself, from its fields. -/
def RuleBody.ofFields? (fields : Written Json) : Option RuleBody := do
  let test ← optional? Condition.ofJson? fields "test"
  let includes ← optional? Condition.ofJson? fields "include"
  let excludes ← optional? Condition.ofJson? fields "exclude"
  let resource ← optional? Condition.ofJson? fields "resource"
  let realResource ← optional? Condition.ofJson? fields "realResource"
  let resourceQuery ← optional? Condition.ofJson? fields "resourceQuery"
  let issuer ← optional? Condition.ofJson? fields "issuer"
  let compiler ← optional? Condition.ofJson? fields "compiler"
  let loader ← optional? Json.str? fields "loader"
  let options ← optional? any? fields "options"
  let uses ← optional? Use.ofJson? fields "use"
  let enforce ← optional? Enforce.ofJson? fields "enforce"
  let moduleType ← optional? Json.str? fields "type"
  let parser ← optional? any? fields "parser"
  let generator ← optional? any? fields "generator"
  let resolve ← optional? any? fields "resolve"
  let sideEffects ← optional? any? fields "sideEffects"
  pure { test, includes, excludes, resource, realResource, resourceQuery, issuer, compiler, loader,
         options, uses, enforce, moduleType, parser, generator, resolve, sideEffects }

/-- A rule, from its fields and from its fields read as lists of rules. -/
def Rule.ofFields? (fields : Written Json) (lists : Written (Option (List Rule))) :
    Option Rule := do
  let body ← RuleBody.ofFields? fields
  let rules ← defaulted? [] id lists "rules"
  let oneOf ← defaulted? [] id lists "oneOf"
  pure { body, rules, oneOf }

mutual

def Rule.ofJson? : Json → Option Rule
  | .obj fields => Rule.ofFields? fields (rulesOfFields fields)
  | .arr items =>
    if items.length ≤ Rule.fieldNames.length then
      Rule.ofFields? (Rule.fieldNames.zip items) (Rule.fieldNames.zip (rulesOfEach items))
    else none
  | _ => none

/-- The list of rules that a value writes. -/
def rulesOfJson? : Json → Option (List Rule)
  | .arr items => rulesOfItems? items
  | _ => none

def rulesOfItems? : List Json → Option (List Rule)
  | [] => some []
  | item :: rest => do
    let first ← Rule.ofJson? item
    let others ← rulesOfItems? rest
    pure (first :: others)

/-- Each field with the list of rules that its value writes, if it does. -/
def rulesOfFields : List (String × Json) → Written (Option (List Rule))
  | [] => []
  | (key, value) :: rest => (key, rulesOfJson? value) :: rulesOfFields rest

/-- For each item the list of rules that it writes, if it does. -/
def rulesOfEach : List Json → List (Option (List Rule))
  | [] => []
  | item :: rest => rulesOfJson? item :: rulesOfEach rest

end

/-- The fields of what a rule says by itself, `null` where it says nothing. -/
def RuleBody.fields (rule : RuleBody) : List (String × Json) :=
  let condition (c : Option Condition) := Json.orNull (c.map Condition.toJson)
  [("test", condition rule.test), ("include", condition rule.includes),
    ("exclude", condition rule.excludes), ("resource", condition rule.resource),
    ("realResource", condition rule.realResource), ("resourceQuery", condition rule.resourceQuery),
    ("issuer", condition rule.issuer), ("compiler", condition rule.compiler),
    ("loader", Json.ofStr? rule.loader), ("options", Json.orNull rule.options),
    ("use", Json.orNull (rule.uses.map Use.toJson)),
    ("enforce", Json.ofStr? (rule.enforce.map Enforce.text)),
    ("type", Json.ofStr? rule.moduleType), ("parser", Json.orNull rule.parser),
    ("generator", Json.orNull rule.generator), ("resolve", Json.orNull rule.resolve),
    ("sideEffects", Json.orNull rule.sideEffects)]

mutual

def Rule.toJson : Rule → Json
  | ⟨body, rules, oneOf⟩ =>
    .obj (KeyMap.ofList (body.fields
      ++ [("rules", .arr (rulesToJson rules)), ("oneOf", .arr (rulesToJson oneOf))]))

def rulesToJson : List Rule → List Json
  | [] => []
  | rule :: rest => Rule.toJson rule :: rulesToJson rest

end

end ImportChain
