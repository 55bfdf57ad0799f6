/-
ImportChain.Module — what a request for a module holds and what it yields.

A dependency is an import edge. Two edges with the same text are different
dependencies, so each has a serial number of its own; its address is where
it is stored, and may be used again once nobody holds it any more.

Modules, parsers and generators that are handed out more than once are
`Shared`: equal serial numbers mean the very same instance.
-/
import ImportChain.Delegate
import ImportChain.Request.Loader
import ImportChain.Rule.Settings

namespace ImportChain

/-! ## Identity -/

/-- An import edge. -/
structure Dependency where
  address : Nat
  serial : Nat
  /-- The request as written. -/
  request : String
  deriving Repr, DecidableEq, Inhabited

/-- An instance that is handed out more than once. -/
structure Shared (α : Type) where
  serial : Nat
  value : α
  deriving Repr, DecidableEq, Inhabited

/-- A parser or a generator: the type it is for and its options. -/
structure Instance where
  moduleType : String
  options : Json
  deriving DecidableEq, Inhabited

/-! ## Requests -/

/-- A request for a module. -/
structure ImportRequest where
  /-- The directory it is made in; none means that of the factory. -/
  context : String := ""
  request : String
  info : ContextInfo := {}
  /-- The options for resolving the resource. -/
  resolveOptions : Json := .empty
  /-- The edges that share the request. -/
  dependencies : List Dependency
  deriving DecidableEq, Inhabited

/-- The request of some edges, as the first of them has it. -/
def ImportRequest.ofDependencies (dependencies : List Dependency) : ImportRequest :=
  { request := (dependencies.head?.map Dependency.request).getD "", dependencies }

/-! ## Modules -/

/-- Everything a module is built from. -/
structure ModuleDescriptor where
  context : String
  /-- The loaders and the resource, joined by `!`. -/
  request : String
  /-- The same with the inline loaders only. -/
  userRequest : String
  rawRequest : String
  loaders : List ResolvedLoader
  /-- The resolved resource with its query. -/
  resource : String
  resourcePath : String
  resourceQuery : String
  matchResource : Option String
  resourceResolveData : Option Json
  settings : Settings
  moduleType : String
  resolveOptions : Json
  parser : Shared Instance
  generator : Shared Instance
  deriving DecidableEq, Inhabited

namespace ModuleDescriptor

/-- A field for a value, if there is one. -/
def valueField (key : String) : Option Json → List (String × Json)
  | some v => [(key, v)]
  | none => []

def toJson (d : ModuleDescriptor) : Json :=
  .obj ([("context", .str d.context), ("loaders", .arr (d.loaders.map ResolvedLoader.toJson))]
    ++ ContextInfo.textField "matchResource" d.matchResource
    ++ [("rawRequest", .str d.rawRequest), ("request", .str d.request),
      ("resolveOptions", d.resolveOptions), ("resource", .str d.resource),
      ("resourcePath", .str d.resourcePath), ("resourceQuery", .str d.resourceQuery)]
    ++ valueField "resourceResolveData" d.resourceResolveData
    ++ [("settings", d.settings.toJson), ("type", .str d.moduleType),
      ("userRequest", .str d.userRequest)])

end ModuleDescriptor

/-- What a request has been resolved to, before it becomes a module. -/
structure ResolvedImport where
  descriptor : ModuleDescriptor
  info : ContextInfo
  dependencies : List Dependency
  deriving DecidableEq, Inhabited

/-- What stands in for a resource that is left out. -/
structure RawModule where
  source : String
  identifier : String
  readableIdentifier : String
  deriving Repr, DecidableEq, Inhabited

namespace RawModule

/-- The stand-in for a request in a directory. -/
def ignored (context request : String) : RawModule :=
  { source := "/* (ignored) */"
    identifier := "ignored " ++ context ++ " " ++ request
    readableIdentifier := request ++ " (ignored)" }

def toJson (m : RawModule) : Json :=
  .obj [("identifier", .str m.identifier), ("readableIdentifier", .str m.readableIdentifier),
    ("source", .str m.source)]

end RawModule

/-- A module. -/
inductive Module where
  | normal (descriptor : ModuleDescriptor)
  | raw (module : RawModule)
  deriving DecidableEq, Inhabited

namespace Module

def identifier : Module → String
  | .normal d => d.request
  | .raw m => m.identifier

def isIgnored : Module → Bool
  | .normal _ => false
  | .raw _ => true

def toJson : Module → Json
  | .normal d => (field "normal" d.toJson)
  | .raw m => (field "ignored" m.toJson)
where
  field (kind : String) : Json → Json
    | .obj fields => .obj (KeyMap.insert fields "kind" (.str kind))
    | other => other

end Module

end ImportChain
