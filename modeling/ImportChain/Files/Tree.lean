/-
ImportChain.Files.Tree — a disk held in memory.

A directory holds its entries by name. A location is walked piece by piece
along a trail of entries, so that `..` after a link climbs from where the
link leads, and every piece after a file leads nowhere.

`Tree.view` answers the questions of a lookup from a tree.
-/
import ImportChain.Files.View
import ImportChain.KeyMap
import ImportChain.Text

namespace ImportChain

/-- What can be at a place on a disk. -/
inductive Entry where
  /-- A file, with its text if it is text. -/
  | file (text : Option String)
  /-- A directory, with its entries in the order of their names. -/
  | dir (entries : List (String × Entry))
  /-- A link to a location, as it was written. -/
  | link (target : String)
  deriving Repr, Inhabited

def Entry.isDir : Entry → Bool
  | .dir _ => true
  | _ => false

/-- The names on the way down from the root. -/
abbrev Position := List String

/-- The entries on the way down from the root with their names, the last one
first. -/
abbrev Trail := List (String × Entry)

def Trail.position (trail : Trail) : Position := (trail.map (·.1)).reverse

/-- A disk, and the directory that relative locations start from. -/
structure Tree where
  entries : KeyMap Entry := []
  here : Position := []
  deriving Repr, Inhabited

namespace Tree

/-! ## Walking -/

/-- Where a trail leads; one without names leads to the root. -/
def top (t : Tree) (trail : Trail) : Entry :=
  match trail with
  | [] => .dir t.entries
  | (_, e) :: _ => e

/-- The trail from a trail along names, which may not be those of links on
the way. -/
def descend? (t : Tree) (trail : Trail) : List String → Option Trail
  | [] => some trail
  | name :: rest =>
    match t.top trail with
    | .dir entries =>
      match KeyMap.get? entries name with
      | some e => descend? t ((name, e) :: trail) rest
      | none => none
    | _ => none

def entry? (t : Tree) (position : Position) : Option Entry :=
  (t.descend? [] position).map t.top

/-- How many links a walk may follow. -/
def linkLimit : Nat := 40

/-- How many bytes the longest location has. -/
def locationLimit : Nat := 4095

/-- The pieces of a location between its slashes. -/
def piecesOf (location : String) : List String :=
  (Text.splitOn '/' location.toList).map String.ofList

/-- Where the pieces of a location start, on a trail or at a position. -/
def startOf {α : Type} (location : String) (base : List α) : List α :=
  if location.toList.head? = some '/' then [] else base

/-- Where pieces lead from a trail, if it leads to a directory wherever there
is a further piece. -/
def walk (t : Tree) (links : Nat) (trail : Trail) (pieces : List String) : Option Trail :=
  match pieces with
  | [] => some trail
  | piece :: rest =>
    match t.top trail with
    | .dir entries =>
      if piece = "" ∨ piece = "." then walk t links trail rest
      else if piece = ".." then walk t links trail.tail rest
      else
        match KeyMap.get? entries piece with
        | none => none
        | some (.link target) =>
          match links with
          | 0 => none
          | links + 1 =>
            if target = "" then none
            else walk t links (startOf target trail) (piecesOf target ++ rest)
        | some e => walk t links ((piece, e) :: trail) rest
    | _ => none
termination_by (links, pieces.length)

/-- The position that pieces lead to from a position. -/
def walkFrom? (t : Tree) (position : Position) (pieces : List String) : Option Position :=
  ((t.descend? [] position).bind fun trail => t.walk linkLimit trail pieces).map Trail.position

/-- The trail that a location leads along. -/
def locate (t : Tree) (location : String) : Option Trail :=
  if location = "" ∨ locationLimit < location.utf8ByteSize then none
  else do t.walk linkLimit (← t.descend? [] (startOf location t.here)) (piecesOf location)

def locationOf (position : Position) : String :=
  String.ofList ('/' :: Text.joinWith '/' (position.map String.toList))

/-- What a location leads to. -/
def at? (t : Tree) (location : String) : Option Entry := (t.locate location).map t.top

/-- The answers that a tree gives. -/
def view (t : Tree) : View where
  isFile location :=
    match t.at? location with
    | some (.file _) => true
    | _ => false
  isDir location := (t.at? location).any Entry.isDir
  read? location :=
    match t.at? location with
    | some (.file text) => text
    | _ => none
  canonical? location := (t.locate location).map fun trail => locationOf trail.position

/-! ## Changing -/

/-- Entries with one at a position. What is not there on the way becomes
directories; a file or a link on the way stays. A directory is put over
another without a change. -/
def putIn (entries : KeyMap Entry) (e : Entry) : Position → KeyMap Entry
  | [] => entries
  | [name] =>
    if e.isDir && (entries.get? name).any Entry.isDir then entries else entries.insert name e
  | name :: rest =>
    match entries.get? name with
    | some (.dir below) => entries.insert name (.dir (putIn below e rest))
    | some _ => entries
    | none => entries.insert name (.dir (putIn [] e rest))

def put (t : Tree) (position : Position) (e : Entry) : Tree :=
  { t with entries := putIn t.entries e position }

/-- Entries without the one at a position. -/
def clearIn (entries : KeyMap Entry) : Position → KeyMap Entry
  | [] => []
  | [name] => entries.filter (·.1 ≠ name)
  | name :: rest =>
    match entries.get? name with
    | some (.dir below) => entries.insert name (.dir (clearIn below rest))
    | _ => entries

def clear (t : Tree) (position : Position) : Tree :=
  { t with entries := clearIn t.entries position }

/-- A tree of entries at their positions; of two at one position the first
counts. -/
def ofEntries (here : Position) (entries : List (Position × Entry)) : Tree :=
  entries.foldr (fun (position, e) t => t.put position e) { here }

/-- Directories made where pieces lead and nothing is, and the position of
the last; nothing if something else is in the way. -/
def makeDirs (t : Tree) (position : Position) : List String → Option (Tree × Position)
  | [] => some (t, position)
  | piece :: rest =>
    match t.walkFrom? position [piece] with
    | some next => if (t.entry? next).any Entry.isDir then makeDirs t next rest else none
    | none =>
      match t.entry? (position ++ [piece]) with
      | none => makeDirs (t.put (position ++ [piece]) (.dir [])) (position ++ [piece]) rest
      | some _ => none

/-- The tree with a file of a name in a directory. A link of that name leads
to where the file is written. -/
def writeAt (t : Tree) (links : Nat) (position : Position) (name : String) (text : Option String) :
    Tree :=
  match t.entry? (position ++ [name]) with
  | some (.dir _) => t
  | some (.link target) =>
    match links with
    | 0 => t
    | links + 1 =>
      let pieces := piecesOf target
      match t.walkFrom? (startOf target position) pieces.dropLast with
      | some parent => writeAt t links parent (pieces.getLastD "") text
      | none => t
  | _ => t.put (position ++ [name]) (.file text)

/-- The directory of a location, made if needed, and the last name in it. -/
def opened (t : Tree) (location : String) : Option (Tree × Position × String) :=
  let pieces := piecesOf location
  (t.makeDirs (startOf location t.here) pieces.dropLast).map fun (t, position) =>
    (t, position, pieces.getLastD "")

/-- The tree with a file at a location, and its directories. -/
def withFile (t : Tree) (location : String) (text : Option String) : Tree :=
  match t.opened location with
  | some (t, position, name) => t.writeAt linkLimit position name text
  | none => t

/-- The tree with a directory at a location, and those above it. -/
def withDir (t : Tree) (location : String) : Tree :=
  match t.makeDirs (startOf location t.here) (piecesOf location) with
  | some (t, _) => t
  | none => t

/-- The tree with a link at a location, and its directories, unless something
is there. -/
def withLink (t : Tree) (location target : String) : Tree :=
  match t.opened location with
  | some (t, position, name) =>
    if (t.entry? (position ++ [name])).isSome then t else t.put (position ++ [name]) (.link target)
  | none => t

/-- The tree without what is at a location, and all below it. A link goes,
not what it leads to. -/
def without (t : Tree) (location : String) : Tree :=
  let pieces := piecesOf location
  match t.walkFrom? (startOf location t.here) pieces.dropLast with
  | some position => t.clear (position ++ [pieces.getLastD ""])
  | none => t

/-- The tree seen from another directory, if there is one. -/
def movedTo (t : Tree) (location : String) : Tree :=
  match t.locate location with
  | some trail => { t with here := trail.position }
  | none => t

end Tree

end ImportChain
