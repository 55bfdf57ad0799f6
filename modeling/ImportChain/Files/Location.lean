/-
ImportChain.Files.Location — the text of places on a disk.

Unlike the walks of `Path`, nothing here is normalised: the text of a
request is put after the text of a directory, and only the disk decides
what `.`, `..` and links in between mean.

A location is the pieces of its text between slashes. A piece is idle if
it names nothing: an empty piece, or a `.` that does not begin a relative
location. `parent?` drops the last piece that is not idle, and
`sameParts` compares two locations without their idle pieces.
-/
import ImportChain.Path

namespace ImportChain.Location

/-! ## Joining -/

/-- A request as seen from a directory: an absolute one stands for itself,
any other is put after the directory and a slash. -/
def joinChars (base request : List Char) : List Char :=
  if Path.isAbsolute request then request
  else if base = [] ∨ base.getLast? = some '/' then base ++ request
  else base ++ '/' :: request

def join (base request : String) : String :=
  String.ofList (joinChars base.toList request.toList)

/-! ## Pieces -/

/-- The pieces of a location after the root, if it begins there. -/
def pieces (location : List Char) : List (List Char) :=
  match location with
  | '/' :: rest => Text.splitOn '/' rest
  | location => Text.splitOn '/' location

def ofPieces (absolute : Bool) (pieces : List (List Char)) : List Char :=
  if absolute then '/' :: Text.joinWith '/' pieces else Text.joinWith '/' pieces

/-- Whether a piece names nothing. `first` says that no piece comes before
it. -/
def isIdle (absolute first : Bool) (piece : List Char) : Bool :=
  piece = [] || (piece = ['.'] && (absolute || !first))

/-- Pieces, the last one first, without the idle ones at their end. -/
def trimmed (absolute : Bool) : List (List Char) → List (List Char)
  | [] => []
  | piece :: rest =>
    if isIdle absolute rest.isEmpty piece then trimmed absolute rest else piece :: rest

/-- The pieces of everything above a location, the nearest first. All lists
of pieces begin with the last. -/
def above (absolute : Bool) : List (List Char) → List (List (List Char))
  | [] => []
  | piece :: rest =>
    if isIdle absolute rest.isEmpty piece then above absolute rest
    else trimmed absolute rest :: above absolute rest

/-- The text of the locations above a location, the nearest first. -/
def parents (location : String) : List String :=
  let absolute := Path.isAbsolute location.toList
  (above absolute (pieces location.toList).reverse).map fun ps =>
    String.ofList (ofPieces absolute ps.reverse)

def parent? (location : String) : Option String := (parents location).head?

def ancestors (location : String) : List String := location :: parents location

/-! ## Comparison -/

/-- The pieces that name something, the first of which has none before it if
`first` says so. -/
def namedPieces (absolute first : Bool) : List (List Char) → List (List Char)
  | [] => []
  | piece :: rest =>
    if isIdle absolute first piece then namedPieces absolute false rest
    else piece :: namedPieces absolute false rest

/-- Whether two locations are the same apart from their idle pieces. -/
def sameParts (a b : String) : Bool :=
  let parts (location : List Char) :=
    let absolute := Path.isAbsolute location
    (absolute, namedPieces absolute true (pieces location))
  parts a.toList = parts b.toList

end ImportChain.Location
