/-
ImportChain.Command.Run — what the program prints and how it ends.

A run depends on the words of the command line, on the directory it is
made in and on the disk, and on nothing else. It ends with 0 if all went
well, with 1 if the work failed, and with 2 if the command line is
misused. A failure is printed only if JSON is asked for.
-/
import ImportChain.Command.Report
import ImportChain.Config.Load
import ImportChain.Factory.Create
import ImportChain.Files.Search

namespace ImportChain.Command

/-- How a run ends and what it has printed. -/
structure Output where
  status : Nat
  stdout : String
  deriving Repr, DecidableEq, Inhabited

namespace Output

def success (stdout : String) : Output := ⟨0, stdout⟩

/-- A run whose work failed. -/
def failure (json : Bool) (e : Error) : Output :=
  ⟨1, if json then printed (failureJson e.code e.text) else ""⟩

def misuse : Output := ⟨2, ""⟩

/-- A run from a result and its report. -/
def ofResult {α : Type} (json : Bool) (report : α → String) : Except Error α → Output
  | .ok result => success (report result)
  | .error e => failure json e

end Output

/-- Facts in JSON if that is asked for, and else a report for a reader. -/
def reported (json : Bool) (facts : List (String × Json)) (report : String) : String :=
  if json then printed (successJson facts) else report

/-! ## Resolving -/

/-- The module of a request in a directory with a configuration. -/
def moduleFor (v : View) (c : Config) (info : ContextInfo) (request : String) :
    Except Error (Option Module) := do
  let rules ← c.ruleSet.mapError .rule
  let setup : FactorySetup :=
    { context := c.context, rules, delegate := v.answer, accepts := fun _ => c.unsafeCache }
  let edge : ImportRequest :=
    { ImportRequest.ofDependencies [⟨0, 0, request⟩] with
      context := c.context, info, resolveOptions := c.resolve }
  let factory : Factory Unit := (Factory.new ()).withBuiltins
  let made ← (Factory.create setup (fun _ => true) edge factory).1.mapError .factory
  pure (made.map Shared.value)

/-- The module of a request in a directory. -/
def resolve (v : View) (dir request : String) (issuer config : Option String) :
    Except Error (Option Module) := do
  let c ← Config.load v dir config
  moduleFor v c { issuer := issuer.map (Path.join dir) } request

def resolveReport (json : Bool) (m : Option Module) : String :=
  reported json [("module", Json.orNull (m.map Module.toJson))] (moduleReport m)

/-! ## Parsing -/

def parseReport (json : Bool) (r : Request) : String :=
  reported json [("parsed", r.toJson)] (requestReport r)

/-! ## Rules -/

/-- What rules are asked about, and what they contribute. -/
structure RuleAnswer where
  resource : String
  query : String
  effects : List RuleEffect
  deriving DecidableEq, Inhabited

/-- The query of a resource: the one that is given, with its `?`, or else the
one of the path. -/
def queryOf (given : Option String) (ofPath : String) : String :=
  match given with
  | none => ofPath
  | some query =>
    match query.toList with
    | [] => query
    | '?' :: _ => query
    | _ => "?" ++ query

/-- What the rules of a directory contribute to a path. -/
def rulesFor (v : View) (dir path : String) (query issuer config : Option String) :
    Except Error RuleAnswer := do
  let c ← Config.load v dir config
  let rules ← c.ruleSet.mapError .rule
  let (path, ownQuery) := Request.splitQuery path
  let resource := Path.join dir path
  let query := queryOf query ownQuery
  pure ⟨resource, query, rules.exec
    { resource, realResource := resource, resourceQuery := query,
      issuer := issuer.map (Path.join dir) }⟩

def rulesReport (json : Bool) (a : RuleAnswer) : String :=
  reported json
    [("effects", .arr (a.effects.map RuleEffect.toJson)), ("resource", .str a.resource),
      ("resourceQuery", .str a.query)]
    (effectsReport a.resource a.effects)

/-! ## Runs -/

def perform (v : View) (dir : String) (json : Bool) : Task → Output
  | .version => .success (versionText ++ "\n")
  | .resolve request issuer config =>
    .ofResult json (resolveReport json) (resolve v dir request issuer config)
  | .parse request => .success (parseReport json (Request.parse dir request))
  | .rules path query issuer config =>
    .ofResult json (rulesReport json) (rulesFor v dir path query issuer config)

/-- What the program does with a command line in a directory. -/
def run (v : View) (here : String) (args : List String) : Output :=
  match Invocation.ofArguments args with
  | .ok i => perform v (i.cwd.getD here) i.json i.task
  | .error (.help topic) => .success topic.page.text
  | .error .version => .success (versionText ++ "\n")
  | .error .misuse => .misuse

end ImportChain.Command
