/-
ImportChain.Chain — a request resolved into its loader chain.

The inline loaders and the resource are sought from the directory of the
request. The rules are then matched on the resource, or on the
match-resource in its place, and their loaders sought from the directory
of the factory; which of them count depends on the suppression of the
request. The chain is `post ++ inline ++ normal ++ pre`.

Of several failures the first in this order counts: inline loaders, the
resource, malformed options, then the loaders of `post`, `normal` and
`pre`. A resource that is left out ends the work before any rule is
matched.
-/
import ImportChain.Loader
import ImportChain.Module
import ImportChain.Rule.Defaults

namespace ImportChain

/-- What requests are resolved with. -/
structure Setup where
  /-- The directory of the factory. -/
  context : String
  rules : RuleSet
  delegate : Delegate

/-! ## Sorting effects -/

/-- Settings, and loaders by position. -/
structure Buckets where
  settings : Settings := .empty
  post : List LoaderSpec := []
  normal : List LoaderSpec := []
  pre : List LoaderSpec := []
  deriving DecidableEq, Inhabited

/-- Whether the loaders of a position are dropped. -/
def Suppression.drops (s : Suppression) : Enforce → Bool
  | .pre => s.dropsPre
  | .normal => s.dropsNormal
  | .post => s.dropsPost

namespace Buckets

def add (b : Buckets) (loader : LoaderSpec) : Enforce → Buckets
  | .post => { b with post := b.post ++ [loader] }
  | .normal => { b with normal := b.normal ++ [loader] }
  | .pre => { b with pre := b.pre ++ [loader] }

def put (s : Suppression) (b : Buckets) : RuleEffect → Except FactoryError Buckets
  | .setting key value => .ok { b with settings := b.settings.apply key value }
  | .use loader enforce => .ok (if s.drops enforce then b else b.add loader enforce)
  | .malformedUse loader found enforce =>
    if s.drops enforce then .ok b else .error (.malformedOptions loader found)

/-- All effects, up to the first malformed one that is not dropped. -/
def ofEffects (s : Suppression) (effects : List RuleEffect) : Except FactoryError Buckets :=
  effects.foldlM (put s) {}

end Buckets

/-! ## The chain -/

/-- A request with everything found but parser and generator. -/
structure Chain where
  /-- The loaders, in the order of the chain. -/
  loaders : List ResolvedLoader
  /-- The inline loaders among them. -/
  inline : List ResolvedLoader
  resource : String
  resourceData : Option Json
  settings : Settings
  parsed : Request
  deriving DecidableEq, Inhabited

/-- What a request leads to. -/
inductive ChainResult where
  /-- The resource is left out. -/
  | ignored (standIn : RawModule)
  | chain (c : Chain)
  deriving DecidableEq, Inhabited

namespace Chain

/-- The idents of loaders followed by a resource, joined by `!`. -/
def compound (loaders : List ResolvedLoader) (resource : String) : String :=
  Request.chainText (loaders.map ResolvedLoader.toIdent) resource

def request (c : Chain) : String := compound c.loaders c.resource

/-- What the user wrote, with the inline loaders resolved. -/
def userRequest (c : Chain) : String :=
  Request.matchText c.parsed.matchResource ++ compound c.inline c.resource

/-- The path and the query that rules are matched on. -/
def matched (parsed : Request) (resource : String) : String × String :=
  Request.splitQuery (parsed.matchResource.getD resource)

/-- What rules are matched on. -/
def factsOf (parsed : Request) (resource : String) (info : ContextInfo) : Facts :=
  let (path, query) := matched parsed resource
  { resource := path
    realResource := (Request.splitQuery resource).1
    resourceQuery := query
    issuer := info.issuer
    compiler := info.compiler }

def moduleType (c : Chain) : String := (c.settings.str? "type").getD defaultModuleType

/-- The options that the module's own imports are resolved with. -/
def resolveOptions (c : Chain) : Json := (c.settings.get? "resolve").getD .empty

def descriptor (c : Chain) (r : ImportRequest) (parser generator : Shared Instance) :
    ModuleDescriptor :=
  let (path, query) := matched c.parsed c.resource
  { context := r.context
    request := c.request
    userRequest := c.userRequest
    rawRequest := r.request
    loaders := c.loaders
    resource := c.resource
    resourcePath := path
    resourceQuery := query
    matchResource := c.parsed.matchResource
    resourceResolveData := c.resourceData
    settings := c.settings
    moduleType := c.moduleType
    resolveOptions := c.resolveOptions
    parser
    generator }

end Chain

namespace Setup

/-- The options that loaders are sought with. -/
def loaderOptions : Json := .empty

/-- Where loaders are, sought from a directory. -/
def findLoaders (s : Setup) (info : ContextInfo) (context : String) (specs : List LoaderSpec) :
    Except FactoryError (List ResolvedLoader) :=
  resolveLoaders s.delegate s.rules info context loaderOptions specs

/-- The loaders that rules add to a resource, sorted. -/
def bucketsFor (s : Setup) (parsed : Request) (resource : String) (info : ContextInfo) :
    Except FactoryError Buckets :=
  Buckets.ofEffects parsed.suppression (s.rules.exec (Chain.factsOf parsed resource info))

/-- The chain of a request whose inline loaders and resource are found. -/
def assemble (s : Setup) (info : ContextInfo) (parsed : Request) (inline : List ResolvedLoader)
    (resource : String) (data : Option Json) : Except FactoryError Chain := do
  let buckets ← s.bucketsFor parsed resource info
  let post ← s.findLoaders info s.context buckets.post
  let normal ← s.findLoaders info s.context buckets.normal
  let pre ← s.findLoaders info s.context buckets.pre
  pure { loaders := post ++ inline ++ normal ++ pre, inline, resource, resourceData := data,
         settings := buckets.settings, parsed }

/-- What a request leads to. -/
def resolve (s : Setup) (r : ImportRequest) : Except FactoryError ChainResult := do
  let parsed := Request.parse r.context r.request
  let inline ← s.findLoaders r.info r.context parsed.loaders
  let found ← (resolveResource s.delegate r.info r.context parsed.resource
    r.resolveOptions).mapError .resolution
  match found with
  | .ignored => pure (.ignored (.ignored r.context r.request))
  | .resolved resource data =>
    (s.assemble r.info parsed inline resource data).map .chain

/-- The questions asked to find loaders from a directory. -/
def findLoadersCalls (s : Setup) (info : ContextInfo) (context : String)
    (specs : List LoaderSpec) : List Call :=
  loadersCalls s.delegate s.rules info context loaderOptions specs

/-- The questions asked to find the rule loaders of a resource. The three
positions are asked about together, whether or not one of them fails. -/
def ruleCalls (s : Setup) (info : ContextInfo) (parsed : Request) (resource : String) :
    List Call :=
  match s.bucketsFor parsed resource info with
  | .error _ => []
  | .ok b =>
    s.findLoadersCalls info s.context b.post ++ s.findLoadersCalls info s.context b.normal
      ++ s.findLoadersCalls info s.context b.pre

/-- The questions asked to resolve a request. The inline loaders and the
resource are asked about together. -/
def resolveCalls (s : Setup) (r : ImportRequest) : List Call :=
  let parsed := Request.parse r.context r.request
  let first := s.findLoadersCalls r.info r.context parsed.loaders
    ++ resourceCalls r.info r.context parsed.resource r.resolveOptions
  match s.findLoaders r.info r.context parsed.loaders,
      resolveResource s.delegate r.info r.context parsed.resource r.resolveOptions with
  | .ok _, .ok (.resolved resource _) => first ++ s.ruleCalls r.info parsed resource
  | _, _ => first

end Setup

end ImportChain
