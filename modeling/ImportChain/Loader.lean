/-
ImportChain.Loader — loaders turned into paths.

References to options are looked up first, and if one leads nowhere nobody
is asked. Then the delegate is asked for every loader; the result keeps
their order, and of several failures the first in that order counts.

A loader that is not found is sought once more with `-loader` after its
name, but only to explain the failure.
-/
import ImportChain.Delegate
import ImportChain.Request.Basic
import ImportChain.Rule.Set

namespace ImportChain

/-- What the names of loaders end with. -/
def loaderSuffix : String := "-loader"

/-- The explanation for a name without its suffix. -/
def suffixHint (name : String) : String :=
  "BREAKING CHANGE: It's no longer allowed to omit the '-loader' suffix when using loaders.\n"
    ++ "                 You need to specify '" ++ name ++ "-loader' instead of '" ++ name ++ "',\n"
    ++ "                 see https://webpack.js.org/migrate/3/"
    ++ "#automatic-loader-module-name-extension-removed"

/-- What is said of a loader that the delegate leaves out. -/
def ignoredLoaderMessage : String := "Loader resolved to an ignored module"

/-- Whether a name could be meant without its suffix. -/
def mayLackSuffix (name : String) : Bool :=
  !(name.toList.contains '/')
    && !(Text.startsWith loaderSuffix.toList.reverse name.toList.reverse)

def loaderCall (info : ContextInfo) (context name : String) (options : Json) : Call :=
  ⟨.loader, info, context, name, options⟩

/-- A loader with the options that it refers to. -/
def LoaderSpec.withOptions (rules : RuleSet) (spec : LoaderSpec) :
    Except FactoryError LoaderSpec :=
  match spec.ident, spec.needsLookup with
  | some ident, true => do
    let fields ← rules.findOptions ident
    pure { spec with options := .structured fields }
  | _, _ => .ok spec

/-- The options that a query writes: none for an empty one. -/
def LoaderOptions.ofQuery (query : String) : LoaderOptions :=
  match query.toList with
  | [] => .absent
  | [_] => .absent
  | _ :: text => .inline (String.ofList text)

/-- A loader at the place that the delegate named. Its own options count
before those of that place. -/
def LoaderSpec.resolvedTo (spec : LoaderSpec) (place : String) : ResolvedLoader :=
  let (path, query) := Request.splitQuery place
  { path
    options := if spec.options.isSome then spec.options else .ofQuery query
    ident := spec.ident }

/-- Whether an answer gives a path. -/
def isResolved : Except ResolutionError Resolution → Bool
  | .ok (.resolved _ _) => true
  | _ => false

/-- The error of a loader that was not found, explained if the name with its
suffix is. -/
def withSuffixHint (delegate : Delegate) (info : ContextInfo) (context name : String)
    (options : Json) (error : ResolutionError) : ResolutionError :=
  if mayLackSuffix name
      && isResolved (delegate (loaderCall info context (name ++ loaderSuffix) options)) then
    { error with message := error.message ++ "\n" ++ suffixHint name }
  else error

def resolveLoader (delegate : Delegate) (info : ContextInfo) (context : String) (options : Json)
    (spec : LoaderSpec) : Except ResolutionError ResolvedLoader :=
  match delegate (loaderCall info context spec.identifier options) with
  | .ok (.resolved place _) => .ok (spec.resolvedTo place)
  | .ok .ignored => .error ⟨spec.identifier, context, ignoredLoaderMessage⟩
  | .error e => .error (withSuffixHint delegate info context spec.identifier options e)

/-- The questions asked to find a loader. -/
def loaderCalls (delegate : Delegate) (info : ContextInfo) (context : String) (options : Json)
    (spec : LoaderSpec) : List Call :=
  let call := loaderCall info context spec.identifier options
  match delegate call with
  | .ok _ => [call]
  | .error _ =>
    if mayLackSuffix spec.identifier then
      [call, loaderCall info context (spec.identifier ++ loaderSuffix) options]
    else [call]

/-- Where all loaders of a list are, or the first failure. -/
def resolveLoaders (delegate : Delegate) (rules : RuleSet) (info : ContextInfo) (context : String)
    (options : Json) (specs : List LoaderSpec) : Except FactoryError (List ResolvedLoader) := do
  let specs ← specs.mapM (LoaderSpec.withOptions rules)
  (specs.mapM (resolveLoader delegate info context options)).mapError .resolution

/-- The questions asked to find all loaders of a list. Every one of them is
asked about, whether or not others fail. -/
def loadersCalls (delegate : Delegate) (rules : RuleSet) (info : ContextInfo) (context : String)
    (options : Json) (specs : List LoaderSpec) : List Call :=
  match specs.mapM (LoaderSpec.withOptions rules) with
  | .ok specs => specs.flatMap (loaderCalls delegate info context options)
  | .error _ => []

end ImportChain
