/-
ImportChain.Request.Loader — loaders as requests and rules write them.

A loader is written `name`, `name?query` or `name??ident`; the last form
refers to structured options that a rule registered under `ident`. A
segment is cut at its first `?`, and an empty query counts as none.

Structured options with an identity are printed as a reference to it;
`identText` is the printed form of every loader.
-/
import ImportChain.Text
import ImportChain.Json.Printer

namespace ImportChain

/-- The options a loader runs with. -/
inductive LoaderOptions where
  | absent
  /-- The text of a query, without its `?`. -/
  | inline (query : String)
  /-- The fields of an options object. -/
  | structured (fields : List (String × Json))
  deriving DecidableEq, Inhabited

namespace LoaderOptions

def isSome : LoaderOptions → Bool
  | .absent => false
  | _ => true

def toJson : LoaderOptions → Json
  | .absent => .null
  | .inline query => .str query
  | .structured fields => .obj fields

end LoaderOptions

/-- The printed form of a loader with its options. -/
def identText (loader : String) (options : LoaderOptions) (ident : Option String) : String :=
  match options, ident with
  | .absent, _ => loader
  | .inline query, _ => loader ++ "?" ++ query
  | .structured _, some ident => loader ++ "??" ++ ident
  | .structured fields, none => loader ++ "?" ++ (Json.obj fields).canonical

def identField (ident : Option String) : List (String × Json) :=
  match ident with
  | some ident => [("ident", .str ident)]
  | none => []

/-! ## Loaders before resolution -/

/-- A loader as written in a request or a rule. -/
structure LoaderSpec where
  /-- Name or path. -/
  identifier : String
  options : LoaderOptions := .absent
  /-- The identity of structured options; without options, a reference to
  options that are still to be looked up. -/
  ident : Option String := none
  deriving DecidableEq, Inhabited

namespace LoaderSpec

/-- Whether the options are still to be looked up by identity. -/
def needsLookup (spec : LoaderSpec) : Bool := spec.ident.isSome && !spec.options.isSome

/-- The printed form of a loader as written. -/
def toIdent (spec : LoaderSpec) : String :=
  match spec.options, spec.ident with
  | .absent, some ident => spec.identifier ++ "??" ++ ident
  | options, ident => identText spec.identifier options ident

/-- The loader that a segment of a request writes, on characters. -/
def ofChars (segment : List Char) : LoaderSpec :=
  match Text.cutAt '?' segment with
  | none => ⟨String.ofList segment, .absent, none⟩
  | some (identifier, []) => ⟨String.ofList identifier, .absent, none⟩
  | some (identifier, c :: query) =>
    if c = '?' then ⟨String.ofList identifier, .absent, some (String.ofList query)⟩
    else ⟨String.ofList identifier, .inline (String.ofList (c :: query)), none⟩

def ofSegment (segment : String) : LoaderSpec := ofChars segment.toList

def toJson (spec : LoaderSpec) : Json :=
  .obj ([("identifier", .str spec.identifier), ("options", spec.options.toJson)]
    ++ identField spec.ident)

end LoaderSpec

/-! ## Loaders after resolution -/

/-- A loader whose path is known. -/
structure ResolvedLoader where
  path : String
  options : LoaderOptions
  /-- The identity of structured options. -/
  ident : Option String
  deriving DecidableEq, Inhabited

namespace ResolvedLoader

/-- The printed form of a resolved loader. -/
def toIdent (loader : ResolvedLoader) : String :=
  identText loader.path loader.options loader.ident

def toJson (loader : ResolvedLoader) : Json :=
  .obj ([("loader", .str loader.path), ("options", loader.options.toJson)]
    ++ identField loader.ident)

end ResolvedLoader

end ImportChain
