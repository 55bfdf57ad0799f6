/-
ImportChain.Main — the program.

The part of the disk that a command line is about is read into a tree, and
the run itself is `Command.run` on that tree. Read are the directory of
the run, that of a configuration file that is named, the context of the
configuration and the locations that the request names, with all below
them, and of every directory above them the manifest and the packages;
nothing is read below a certain depth.
-/
import ImportChain.Command.Run
import ImportChain.Files.Tree

namespace ImportChain.Disk

/-- How far below a directory the disk is read. -/
def depthLimit : Nat := 12

/-- The text of a file, if it is text. -/
def readText? (path : String) : IO (Option String) := do
  try
    let text ← IO.FS.readFile path
    pure (some text)
  catch _ => pure none

def positionOf (location : String) : Position :=
  (Tree.piecesOf location).filter (· ≠ "")

/-- What is at a location and, down to a depth, below it. -/
def readBelow : Nat → List (Position × Entry) → String → IO (List (Position × Entry))
  | 0, entries, _ => pure entries
  | depth + 1, entries, location => do
    let here ← IO.currentDir
    let position := positionOf location
    match ← ((here / location).symlinkMetadata).toBaseIO with
    | .error _ => pure entries
    | .ok data =>
      match data.type with
      | .file => do
        let text ← readText? location
        pure ((position, .file text) :: entries)
      | .symlink => do
        let target ← IO.FS.realPath location
        pure ((position, .link (toString target)) :: entries)
      | .dir => do
        let below ← (here / location).readDir
        below.foldlM (fun entries e => readBelow depth entries (Location.join location e.fileName))
          ((position, .dir []) :: entries)
      | .other => pure entries

/-- What a lookup asks of the directories above a location. -/
def readAbove (entries : List (Position × Entry)) (location : String) :
    IO (List (Position × Entry)) :=
  (Location.parents location).foldlM
    (fun entries dir => do
      let entries := (positionOf dir, .dir []) :: entries
      let entries ← readBelow 2 entries (Manifest.location dir)
      readBelow depthLimit entries (Location.join dir "node_modules"))
    entries

/-- The disk around a location, if there is something. -/
def readAround (entries : List (Position × Entry)) (location : String) :
    IO (List (Position × Entry)) := do
  match ← (IO.FS.realPath location).toBaseIO with
  | .error _ => pure entries
  | .ok path => do
    let place := toString path
    let entries ← readBelow depthLimit entries place
    readAbove entries place

/-- The disk around a location that may be that of a file, given without its
extension. -/
def readBeside (entries : List (Position × Entry)) (location : String) :
    IO (List (Position × Entry)) :=
  ((Location.parent? location).toList ++ [location]).foldlM readAround entries

/-- The locations that a request made in a directory names. -/
def locationsIn (context request : String) : List String :=
  let parsed := Request.parse context request
  let names := (Request.splitQuery parsed.resource).1 :: parsed.loaders.map LoaderSpec.identifier
  (names.filter fun name => isDotted name || Path.isAbsolute name.toList).map
    (Location.join context)

/-- The locations that a task made in a directory names. -/
def locationsOf (context : String) : Command.Task → List String
  | .resolve request _ _ => locationsIn context request
  | _ => []

/-- A tree of what has been read, seen from a directory. -/
def treeOf (here : String) (entries : List (Position × Entry)) : Tree :=
  let directories := (Location.ancestors here).map fun dir => (positionOf dir, Entry.dir [])
  .ofEntries (positionOf here) (entries ++ directories)

/-- The configuration file that a task names. -/
def configOf : Command.Task → Option String
  | .resolve _ _ config => config
  | .rules _ _ _ config => config
  | _ => none

/-- The disk that a command line is about. -/
def treeFor (here : String) (args : List String) : IO Tree := do
  match Command.Invocation.ofArguments args with
  | .error _ => pure (treeOf here [])
  | .ok i => do
    let dir := Location.join here (i.cwd.getD here)
    let config := configOf i.task
    let file := config.map (Location.join dir)
    let entries ← readAround [] dir
    let entries ← ((file.bind Location.parent?).toList).foldlM readAround entries
    match Config.load (treeOf here entries).view dir config with
    | .ok c => do
      let entries ← readAround entries c.context
      let entries ← (locationsOf c.context i.task).foldlM readBeside entries
      pure (treeOf here entries)
    | .error _ => pure (treeOf here entries)

end ImportChain.Disk

open ImportChain in
/-- Runs the program with the words of its command line. -/
def main (args : List String) : IO UInt32 := do
  let here := toString (← IO.currentDir)
  let tree ← Disk.treeFor here args
  let out := Command.run tree.view here args
  IO.print out.stdout
  pure out.status.toUInt32
