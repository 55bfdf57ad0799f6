/-
ImportChain.Request.Basic — import requests taken apart and put together.

    ./virtual.css!=!-!style-loader!css-loader?modules!./button.js?raw
    match-resource   |    inline loaders             resource
                     suppression mark

A match-resource is what stands before a first `!` that begins `!=!`; it
takes the resource's place when rules are matched. The marks `!` and `-!`
suppress the rule loaders before and among the inline ones, `!!` those
after them too. The rest is cut at every `!`: the last piece is the
resource, and each earlier piece that is not empty is a loader.

Every text is a request, possibly with an empty resource.
-/
import ImportChain.Path
import ImportChain.Request.Loader

namespace ImportChain

/-- Which rule loaders a request does without. -/
inductive Suppression where
  | nothing
  /-- Those that run first and those without a position of their own. -/
  | automatic
  /-- Every one. -/
  | everything
  deriving Repr, DecidableEq, Inhabited

namespace Suppression

/-- Whether rule loaders that run first are dropped. -/
def dropsPre (s : Suppression) : Bool := s != .nothing

/-- Whether rule loaders without a position of their own are dropped. -/
def dropsNormal (s : Suppression) : Bool := s != .nothing

/-- Whether rule loaders that run last are dropped. -/
def dropsPost (s : Suppression) : Bool := s == .everything

def mark : Suppression → String
  | .nothing => ""
  | .automatic => "!"
  | .everything => "!!"

/-- The suppression that a request asks for. -/
def ofChars : List Char → Suppression
  | '!' :: '!' :: _ => .everything
  | '!' :: _ => .automatic
  | '-' :: '!' :: _ => .automatic
  | _ => .nothing

end Suppression

/-- A request by its parts. -/
structure Request where
  /-- The path that rules are matched on instead of the resource. -/
  matchResource : Option String
  suppression : Suppression
  /-- The inline loaders, in order. -/
  loaders : List LoaderSpec
  /-- The resource, possibly with a query. -/
  resource : String
  deriving DecidableEq, Inhabited

namespace Request

/-! ## Taking apart -/

/-- The match-resource of a request and what follows its marker. -/
def splitMatchResource (raw : List Char) : Option (List Char × List Char) :=
  match Text.cutAt '!' raw with
  | some (c :: name, '=' :: '!' :: rest) => some (c :: name, rest)
  | _ => none

/-- A match-resource as seen from the directory of the request. -/
def anchored (context : String) (name : List Char) : String :=
  if Path.isRelative (String.ofList name) then Path.join context (String.ofList name)
  else String.ofList name

/-- What is left without the suppression mark: a `-` goes only together with
a `!` after it, and every leading `!` goes. -/
def withoutMark : List Char → List Char
  | '-' :: '!' :: rest => rest.dropWhile (· = '!')
  | rest => rest.dropWhile (· = '!')

/-- The loaders and the resource of a request without its marks. -/
def chainOf (body : List Char) : List LoaderSpec × String :=
  let pieces := Text.splitOn '!' body
  ((pieces.dropLast.filter (· ≠ [])).map LoaderSpec.ofChars,
    String.ofList (pieces.getLastD []))

/-- The parts of a request after its match-resource. -/
def ofBody (matchResource : Option String) (rest : List Char) : Request :=
  let (loaders, resource) := chainOf (withoutMark rest)
  ⟨matchResource, Suppression.ofChars rest, loaders, resource⟩

/-- The parts of a request made in the directory `context`. -/
def parse (context raw : String) : Request :=
  match splitMatchResource raw.toList with
  | some (name, rest) => ofBody (some (anchored context name)) rest
  | none => ofBody none raw.toList

/-! ## Putting together -/

/-- The text of a match-resource with its marker. -/
def matchText : Option String → String
  | some name => name ++ "!=!"
  | none => ""

/-- The text of a list of loaders followed by a resource. -/
def chainText (loaders : List String) (resource : String) : String :=
  loaders.foldr (fun loader rest => loader ++ "!" ++ rest) resource

def toText (request : Request) : String :=
  matchText request.matchResource ++ request.suppression.mark
    ++ chainText (request.loaders.map LoaderSpec.toIdent) request.resource

/-- A resource cut at its first `?` into its path and its query with the
`?`. -/
def splitQuery (resource : String) : String × String :=
  match Text.cutAt '?' resource.toList with
  | some (path, query) => (String.ofList path, String.ofList ('?' :: query))
  | none => (resource, "")

theorem query_notMem_splitQuery (place : String) :
    '?' ∉ (splitQuery place).1.toList := by
  unfold splitQuery
  cases hcut : Text.cutAt '?' place.toList with
  | none => exact Text.cutAt_eq_none_iff.1 hcut
  | some cut =>
    rw [String.toList_ofList]
    exact (Text.cutAt_eq_some_iff.1 hcut).2

theorem splitQuery_of_notMem {place : String} (h : '?' ∉ place.toList) :
    splitQuery place = (place, "") := by
  unfold splitQuery
  rw [Text.cutAt_eq_none_iff.2 h]

theorem splitQuery_of_append {place : String} {path text : List Char}
    (h : place.toList = path ++ '?' :: text) (hp : '?' ∉ path) :
    splitQuery place = (String.ofList path, String.ofList ('?' :: text)) := by
  unfold splitQuery
  rw [Text.cutAt_eq_some_iff.2 ⟨h, hp⟩]

theorem toList_splitQuery_snd (place : String) :
    (splitQuery place).2.toList = place.toList.dropWhile (· ≠ '?') := by
  have hskip : ∀ {path : List Char}, '?' ∉ path → ∀ c ∈ path, (decide (c ≠ '?')) = true :=
    fun hp c hc => by simpa using fun e : c = '?' => hp (e ▸ hc)
  cases hcut : Text.cutAt '?' place.toList with
  | none =>
    have hd : (place.toList ++ []).dropWhile (· ≠ '?') = [] :=
      List.dropWhile_append_of_pos (hskip (Text.cutAt_eq_none_iff.1 hcut))
    rw [List.append_nil] at hd
    rw [hd]
    unfold splitQuery
    rw [hcut]
    rfl
  | some cut =>
    obtain ⟨hs, hp⟩ := Text.cutAt_eq_some_iff.1 hcut
    rw [splitQuery_of_append hs hp, hs, List.dropWhile_append_of_pos (hskip hp),
      String.toList_ofList]
    rfl

def toJson (request : Request) : Json :=
  .obj [
    ("inlineLoaders", .arr (request.loaders.map LoaderSpec.toJson)),
    ("matchResource", Json.ofStr? request.matchResource),
    ("resource", .str request.resource),
    ("suppressNormal", .bool request.suppression.dropsNormal),
    ("suppressPost", .bool request.suppression.dropsPost),
    ("suppressPre", .bool request.suppression.dropsPre)]

end Request

end ImportChain
