/-
ImportChain.Path — paths as text, joined and normalised without looking
at any disk.

A path is walked segment by segment: an empty segment and `.` stay, `..`
climbs, any other segment descends. `normalize` keeps only what the walk
leaves behind, and `join` walks a request from a base directory.

`normalize` of an absolute path never climbs above the root; of a
relative path it keeps the `..` segments that lead above its start.
-/
import ImportChain.Text

namespace ImportChain.Path

/-! ## Segments -/

/-- One step of a walk. -/
inductive Segment where
  /-- Stay in the directory: an empty segment or `.`. -/
  | stay
  /-- Climb to the parent: `..`. -/
  | climb
  /-- Descend to the entry of this name. -/
  | descend (name : List Char)
  deriving Repr, DecidableEq

/-- The step that a piece of text between two slashes stands for. -/
def Segment.ofText (text : List Char) : Segment :=
  if text = [] ∨ text = ['.'] then .stay
  else if text = ['.', '.'] then .climb
  else .descend text

/-- Whether a path starts at the root. -/
def isAbsolute (path : List Char) : Bool := path.head? = some '/'

def segments (path : List Char) : List Segment := (Text.splitOn '/' path).map Segment.ofText

/-! ## Normal form -/

/-- Where a walk has led: how far above its start it climbed, then the names
it went down, the deepest first. -/
structure Position where
  climbs : Nat
  names : List (List Char)
  deriving Repr, DecidableEq

def Position.start : Position := ⟨0, []⟩

/-- One step of a walk. Climbing undoes the last descent; from the start of
the walk it leads above the start, unless that is the root. -/
def Position.step (absolute : Bool) (p : Position) : Segment → Position
  | .stay => p
  | .climb =>
    match p.names with
    | _ :: names => { p with names }
    | [] => if absolute then p else { p with climbs := p.climbs + 1 }
  | .descend name => { p with names := name :: p.names }

def Position.walk (absolute : Bool) (p : Position) (steps : List Segment) : Position :=
  steps.foldl (Position.step absolute) p

/-- The segments that lead straight to a position. -/
def Position.pieces (p : Position) : List (List Char) :=
  List.replicate p.climbs ['.', '.'] ++ p.names.reverse

/-- The text of a position: `/` and `.` stand for the start itself. -/
def Position.text (absolute : Bool) (p : Position) : List Char :=
  let body := Text.joinWith '/' p.pieces
  if absolute then '/' :: body else if body = [] then ['.'] else body

/-- The normal form of a path, on characters. -/
def normalizeChars (path : List Char) : List Char :=
  (Position.start.walk (isAbsolute path) (segments path)).text (isAbsolute path)

/-- The normal form of a path: no empty or `.` segment, and `..` only at the
start of a relative path. -/
def normalize (path : String) : String := String.ofList (normalizeChars path.toList)

/-! ## Joining -/

/-- A request walked from `base`, before normalisation. An absolute request
or an empty base leaves the request as it is. -/
def attach (base request : List Char) : List Char :=
  if isAbsolute request ∨ base = [] then request
  else Text.dropEnd '/' base ++ '/' :: request

def join (base request : String) : String :=
  String.ofList (normalizeChars (attach base.toList request.toList))

/-- Whether a request is relative to the directory it is made in. -/
def isRelative (request : String) : Bool :=
  Text.startsWith ['.', '/'] request.toList || Text.startsWith ['.', '.', '/'] request.toList

end ImportChain.Path
