/-
ImportChain.Delegate — who turns names into paths.

Resolving is left to a delegate, a function of the kind of thing sought,
of who asks, of the directory, the request and the options. An empty
resource and a bare query stand for themselves and need no delegate.
-/
import ImportChain.Error
import ImportChain.Json.Schema
import ImportChain.Json.Printer

namespace ImportChain

open Json.Schema

/-- What is sought. -/
inductive ResolverKind where
  | loader
  | normal
  deriving Repr, DecidableEq, Inhabited

def ResolverKind.text : ResolverKind → String
  | .loader => "loader"
  | .normal => "normal"

/-- Who asks. -/
structure ContextInfo where
  /-- The path of the module that imports. -/
  issuer : Option String := none
  /-- The name of the compiler that imports. -/
  compiler : Option String := none
  deriving Repr, DecidableEq, Inhabited

namespace ContextInfo

def ofFields? (fields : Written Json) : Option ContextInfo := do
  let issuer ← optional? Json.str? fields "issuer"
  let compiler ← optional? Json.str? fields "compiler"
  pure { issuer, compiler }

/-- Who asks, as a value writes it: an object, or an array of up to two
items. -/
def ofJson? : Json → Option ContextInfo
  | .obj fields => ofFields? fields
  | .arr items => if items.length ≤ 2 then ofFields? (["issuer", "compiler"].zip items) else none
  | _ => none

/-- A field for a text, if there is one. -/
def textField (key : String) : Option String → List (String × Json)
  | some s => [(key, .str s)]
  | none => []

/-- Who asks, as JSON; what is missing is left out. -/
def toJson (info : ContextInfo) : Json :=
  .obj (textField "compiler" info.compiler ++ textField "issuer" info.issuer)

end ContextInfo

/-- A successful answer. -/
inductive Resolution where
  /-- A path, possibly with a query, and what else the delegate tells. -/
  | resolved (path : String) (data : Option Json)
  /-- The thing is left out on purpose. -/
  | ignored
  deriving DecidableEq, Inhabited

/-- A question to the delegate. -/
structure Call where
  kind : ResolverKind
  info : ContextInfo
  context : String
  request : String
  options : Json
  deriving DecidableEq, Inhabited

def Call.text (call : Call) : String :=
  call.kind.text ++ " [" ++ call.context ++ "] [" ++ call.request ++ "] issuer="
    ++ call.info.issuer.getD "-" ++ " compiler=" ++ call.info.compiler.getD "-"
    ++ " options=" ++ call.options.canonical

/-- Whoever answers such questions. -/
abbrev Delegate := Call → Except ResolutionError Resolution

/-- Whether a resource stands for itself. -/
def isVirtual (resource : String) : Bool :=
  match resource.toList with
  | [] => true
  | c :: _ => c = '?'

/-- The question that finds a resource. -/
def resourceCall (info : ContextInfo) (context resource : String) (options : Json) : Call :=
  ⟨.normal, info, context, resource, options⟩

/-- Where a resource is. -/
def resolveResource (delegate : Delegate) (info : ContextInfo) (context resource : String)
    (options : Json) : Except ResolutionError Resolution :=
  if isVirtual resource then .ok (.resolved resource none)
  else delegate (resourceCall info context resource options)

/-- The questions asked to find a resource. -/
def resourceCalls (info : ContextInfo) (context resource : String) (options : Json) : List Call :=
  if isVirtual resource then [] else [resourceCall info context resource options]

end ImportChain
