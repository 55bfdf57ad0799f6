/-
ImportChain.Files.Lookup — the settings of a lookup, and what they make of
a request.

Settings come from the options of a call, with defaults for resources and
for loaders. An alias stands for a whole request or for its beginning up
to a slash. Aliases are tried in key order, and the first whose name fits
decides, even if its target is of no use.
-/
import ImportChain.Delegate
import ImportChain.Files.Location

namespace ImportChain

/-- The settings of a lookup. -/
structure Lookup where
  /-- What is tried after the name of a file. -/
  extensions : List String
  /-- The manifest fields that can name the entry of a directory. -/
  mainFields : List String
  /-- Aliases with their targets, in key order. -/
  aliases : List (String × Json)
  /-- Whether the `browser` maps of manifests count. -/
  browserMaps : Bool
  deriving DecidableEq, Inhabited

namespace Lookup

def defaultExtensions : ResolverKind → List String
  | .loader => [".js"]
  | .normal => [".wasm", ".mjs", ".js", ".json"]

def defaultMainFields : ResolverKind → List String
  | .loader => ["loader", "main"]
  | .normal => ["browser", "module", "main"]

def defaultAliasFields : ResolverKind → List String
  | .loader => []
  | .normal => ["browser"]

/-- The texts in an array of options, or a default if there is no array. -/
def texts (options : Json) (key : String) (default : List String) : List String :=
  match (options.field? key).bind Json.arr? with
  | some items => items.filterMap Json.str?
  | none => default

/-- The settings that options make. -/
def ofOptions (kind : ResolverKind) (options : Json) : Lookup where
  extensions := texts options "extensions" (defaultExtensions kind)
  mainFields := texts options "mainFields" (defaultMainFields kind)
  aliases := (((options.field? "alias").map Json.settled).bind Json.obj?).getD []
  browserMaps := (texts options "aliasFields" (defaultAliasFields kind)).contains "browser"

end Lookup

/-! ## Aliases -/

/-- What aliases make of a request. -/
inductive Aliased where
  /-- No alias applies. -/
  | asWritten
  | replaced (request : String)
  /-- The request is left out. -/
  | ignored
  deriving Repr, DecidableEq, Inhabited

/-- What follows the name of an alias in a request, if the name is the whole
request or ends at a slash. -/
def afterAlias? (name request : String) : Option String :=
  match Text.dropStart? name.toList request.toList with
  | some [] => some ""
  | some ('/' :: rest) => some (String.ofList ('/' :: rest))
  | _ => none

/-- What the target of an alias makes of a request that goes on with `rest`
after the name. -/
def Aliased.ofTarget (target : Json) (rest : String) : Aliased :=
  match target with
  | .str text => .replaced (text ++ rest)
  | .bool false => .ignored
  | _ => .asWritten

/-- What aliases make of a request. -/
def Aliased.ofRequest (request : String) : List (String × Json) → Aliased
  | [] => .asWritten
  | (name, target) :: others =>
    match afterAlias? name request with
    | some rest => .ofTarget target rest
    | none => .ofRequest request others

/-! ## Bare requests -/

/-- Whether a request begins where it is made: `.`, `..` or a path that
begins with one of them. -/
def isDotted (request : String) : Bool :=
  request = "." || request = ".." || Path.isRelative request

/-- Whether a request can name a module: it begins neither with a dot nor at
the root. -/
def isBare (request : String) : Bool :=
  match request.toList with
  | '.' :: _ => false
  | '/' :: _ => false
  | _ => true

/-- A package and a path below it. -/
structure PackageRequest where
  name : String
  subpath : Option String
  deriving Repr, DecidableEq, Inhabited

/-- The package that a bare request names: its first segment, or its first
two if it begins with `@`. -/
def PackageRequest.ofText (request : String) : PackageRequest :=
  match request.toList with
  | '@' :: _ =>
    match Text.cutAt '/' request.toList with
    | none => ⟨request, none⟩
    | some (scope, rest) =>
      match Text.cutAt '/' rest with
      | none => ⟨request, none⟩
      | some (name, subpath) =>
        ⟨String.ofList (scope ++ '/' :: name), some (String.ofList subpath)⟩
  | chars =>
    match Text.cutAt '/' chars with
    | none => ⟨request, none⟩
    | some (name, subpath) => ⟨String.ofList name, some (String.ofList subpath)⟩

end ImportChain
