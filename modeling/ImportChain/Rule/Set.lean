/-
ImportChain.Rule.Set — rules made ready, and what they give for a resource.

Each rule becomes a node. The four conditions on the resource are joined
into one; an exclusion is a negation. A structured loader option gets an
identity: the item's own, else the one inside the options, else the
position of the item in the rule tree.

Making ready fails at the first defect: rules in order, and within a rule
the conditions on the resource, then the combination of its keys, then
the other conditions, its nested rules and its branches.

`effects` lists what the passing nodes contribute: a node's settings and
loaders, then those of its nested rules, then those of the first branch
that passes.
-/
import ImportChain.Rule.Basic
import ImportChain.Request.Loader

namespace ImportChain

/-! ## Effects -/

/-- One outcome of a matching rule. -/
inductive RuleEffect where
  /-- A loader for the chain. -/
  | use (loader : LoaderSpec) (enforce : Enforce)
  | setting (key : String) (value : Json)
  /-- A loader whose options are of a kind that no loader takes. -/
  | malformedUse (loader found : String) (enforce : Enforce)
  deriving DecidableEq, Inhabited

namespace RuleEffect

def toJson : RuleEffect → Json
  | .use loader enforce => .obj [("enforce", .str enforce.text), ("kind", .str "use"),
      ("value", loader.toJson)]
  | .setting key value => .obj [("key", .str key), ("kind", .str "setting"), ("value", value)]
  | .malformedUse loader found enforce => .obj [("enforce", .str enforce.text),
      ("found", .str found), ("kind", .str "malformedUse"), ("loader", .str loader)]

end RuleEffect

/-! ## Loaders of a rule -/

/-- A loader that a node uses. -/
inductive NodeLoader where
  | ready (spec : LoaderSpec)
  | malformed (loader found : String)
  deriving DecidableEq, Inhabited

/-- Options as a loader takes them, or the kind of value that it does not. -/
def LoaderOptions.ofJson (options : Option Json) : Except String LoaderOptions :=
  match options with
  | none => .ok .absent
  | some .null => .ok .absent
  | some (.str s) => .ok (if s = "" then .absent else .inline s)
  | some (.obj fields) => .ok (.structured fields)
  | some other => .error other.kind

def ownIdent (fields : List (String × Json)) : Option String :=
  (KeyMap.get? fields "ident").bind Json.str?

/-- The identity of options: none unless they are structured. -/
def LoaderOptions.identity (options : LoaderOptions) (explicit : Option String)
    (position : String) : Option String :=
  match options with
  | .structured fields => some ((explicit.or (ownIdent fields)).getD position)
  | _ => none

/-- The loaders of one entry at a position. -/
def UseItem.loaders (position : String) : UseItem → List NodeLoader
  | .request text =>
    ((Text.splitOn '!' text.toList).filter (· ≠ [])).map fun segment =>
      .ready (LoaderSpec.ofChars segment)
  | .loader name options explicit =>
    match LoaderOptions.ofJson options with
    | .error found => [.malformed name found]
    | .ok options => [.ready ⟨name, options, options.identity explicit position⟩]

/-- The position of the entry with a number. -/
def numbered (position : String) (number : Nat) : String :=
  position ++ "-" ++ String.ofList (Nat.toDigits 10 number)

/-- The loaders of a list of entries, the first of which has a number. -/
def loadersFrom (position : String) (number : Nat) : List UseItem → List NodeLoader
  | [] => []
  | item :: rest =>
    item.loaders (numbered position number) ++ loadersFrom position (number + 1) rest

namespace RuleError

/-- A rule at a position has a loader and a list of them. -/
def loaderWithUse (position : String) : RuleError :=
  .rule position "`loader` and `use` cannot be combined"

/-- A rule at a position has options for no loader. -/
def optionsWithoutLoader (position : String) : RuleError :=
  .rule position "`options` requires `loader`"

end RuleError

/-- The loaders of a rule at a position, if its keys go together. -/
def RuleBody.loaders (rule : RuleBody) (position : String) : Except RuleError (List NodeLoader) :=
  match rule.loader, rule.uses with
  | some _, some _ => .error (.loaderWithUse position)
  | some loader, none => .ok ((UseItem.loader loader rule.options none).loaders position)
  | none, uses =>
    if rule.options.isSome then .error (.optionsWithoutLoader position)
    else match uses with
    | some (.one item) => .ok (item.loaders position)
    | some (.many items) => .ok (loadersFrom position 0 items)
    | none => .ok []

/-! ## Conditions and settings of a rule -/

/-- A condition made ready, if there is one. -/
def Condition.compile? : Option Condition → Except RuleError (Option Matcher)
  | none => .ok none
  | some c => c.compile.map some

/-- Conditions that must all hold; one stands for itself, none for no
condition. -/
def Matcher.ofParts : List Matcher → Option Matcher
  | [] => none
  | [part] => some part
  | parts => some (.all parts)

/-- The condition that a rule puts on the resource. -/
def RuleBody.resourceMatcher (rule : RuleBody) : Except RuleError (Option Matcher) := do
  let test ← Condition.compile? rule.test
  let includes ← Condition.compile? rule.includes
  let resource ← Condition.compile? rule.resource
  let excludes ← Condition.compile? rule.excludes
  pure (Matcher.ofParts
    (test.toList ++ includes.toList ++ resource.toList ++ (excludes.map Matcher.not).toList))

def settingOf (key : String) : Option Json → List (String × Json)
  | some value => [(key, value)]
  | none => []

def RuleBody.settings (rule : RuleBody) : List (String × Json) :=
  settingOf "type" (rule.moduleType.map .str) ++ settingOf "parser" rule.parser
    ++ settingOf "generator" rule.generator ++ settingOf "resolve" rule.resolve
    ++ settingOf "sideEffects" rule.sideEffects

/-! ## Nodes -/

/-- What a node contributes and when, by itself. -/
structure NodeBody where
  resource : Option Matcher
  realResource : Option Matcher
  resourceQuery : Option Matcher
  issuer : Option Matcher
  compiler : Option Matcher
  settings : List (String × Json)
  loaders : List NodeLoader
  enforce : Enforce

/-- A rule made ready. -/
structure RuleNode where
  body : NodeBody
  rules : List RuleNode
  oneOf : List RuleNode

/-- What a rule at a position says by itself made ready. -/
def NodeBody.compile (position : String) (rule : RuleBody) : Except RuleError NodeBody := do
  let resource ← rule.resourceMatcher
  let loaders ← rule.loaders position
  let realResource ← Condition.compile? rule.realResource
  let resourceQuery ← Condition.compile? rule.resourceQuery
  let issuer ← Condition.compile? rule.issuer
  let compiler ← Condition.compile? rule.compiler
  pure { resource, realResource, resourceQuery, issuer, compiler, settings := rule.settings,
         loaders, enforce := rule.enforce.getD .normal }

mutual

/-- A rule at a position made ready. -/
def RuleNode.compile (position : String) : Rule → Except RuleError RuleNode
  | ⟨body, rules, oneOf⟩ => do
    let body ← NodeBody.compile position body
    let rules ← RuleNode.compileFrom (position ++ "-rules") 0 rules
    let oneOf ← RuleNode.compileFrom (position ++ "-oneOf") 0 oneOf
    pure ⟨body, rules, oneOf⟩

/-- Rules made ready, the first of which has a number below a position. -/
def RuleNode.compileFrom (position : String) (number : Nat) :
    List Rule → Except RuleError (List RuleNode)
  | [] => .ok []
  | rule :: rest => do
    let first ← RuleNode.compile (numbered position number) rule
    let others ← RuleNode.compileFrom position (number + 1) rest
    pure (first :: others)

end

/-- The options that loaders register, with their identities. -/
def registered (loaders : List NodeLoader) : List (String × List (String × Json)) :=
  loaders.filterMap fun
    | .ready ⟨_, .structured fields, some ident⟩ => some (ident, fields)
    | _ => none

namespace RuleNode

mutual

/-- The options that a node and the nodes below it register, in order. -/
def references : RuleNode → List (String × List (String × Json))
  | ⟨body, rules, oneOf⟩ =>
    registered body.loaders ++ referencesOfAll rules ++ referencesOfAll oneOf

def referencesOfAll : List RuleNode → List (String × List (String × Json))
  | [] => []
  | node :: rest => references node ++ referencesOfAll rest

end

end RuleNode

namespace NodeBody

/-- Whether the facts pass the conditions of a node. -/
def passes (facts : Facts) (node : NodeBody) : Bool :=
  Matcher.check node.resource (some facts.resource)
    && Matcher.check node.realResource (some facts.realResource)
    && Matcher.check node.resourceQuery (some facts.resourceQuery)
    && Matcher.check node.compiler facts.compiler
    && Matcher.check node.issuer facts.issuer

def ownEffects (node : NodeBody) : List RuleEffect :=
  node.settings.map (fun (key, value) => .setting key value) ++ node.loaders.map fun
    | .ready spec => .use spec node.enforce
    | .malformed loader found => .malformedUse loader found node.enforce

end NodeBody

namespace RuleNode

mutual

/-- What a node and the nodes below it contribute; nothing unless it
passes. -/
def effects (facts : Facts) : RuleNode → List RuleEffect
  | ⟨body, rules, oneOf⟩ =>
    if body.passes facts then
      body.ownEffects ++ effectsOfAll facts rules ++ effectsOfFirst facts oneOf
    else []

/-- What all nodes of a list contribute. -/
def effectsOfAll (facts : Facts) : List RuleNode → List RuleEffect
  | [] => []
  | node :: rest => effects facts node ++ effectsOfAll facts rest

/-- What the first node that passes contributes. -/
def effectsOfFirst (facts : Facts) : List RuleNode → List RuleEffect
  | [] => []
  | node :: rest => if node.body.passes facts then effects facts node else effectsOfFirst facts rest

end

end RuleNode

/-! ## Sets -/

/-- Rules made ready. -/
structure RuleSet where
  nodes : List RuleNode
  deriving Inhabited

namespace RuleSet

def empty : RuleSet := ⟨[]⟩

def compile (rules : List Rule) : Except RuleError RuleSet :=
  (RuleNode.compileFrom "ref-" 0 rules).map RuleSet.mk

/-- What the rules contribute for a resource, in order. -/
def exec (set : RuleSet) (facts : Facts) : List RuleEffect :=
  RuleNode.effectsOfAll facts set.nodes

/-- The options registered last under an identity. -/
def options? (set : RuleSet) (ident : String) : Option (List (String × Json)) :=
  ((RuleNode.referencesOfAll set.nodes).reverse.find? (·.1 = ident)).map (·.2)

/-- The options registered last under an identity, or an error. -/
def findOptions (set : RuleSet) (ident : String) :
    Except FactoryError (List (String × Json)) :=
  match set.options? ident with
  | some fields => .ok fields
  | none => .error (.optionLookup ident)

def size (set : RuleSet) : Nat := set.nodes.length

end RuleSet

end ImportChain
