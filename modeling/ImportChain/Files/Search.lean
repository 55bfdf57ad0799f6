/-
ImportChain.Files.Search — files found for requests.

A request is sought at one place or, if it is bare, in the `node_modules`
of the directory it is made in and of those above it. At a place a file is
sought by its name and by its name with each extension; a directory is
entered through its manifest or through `index`.

A file that is found goes by its canonical location, and is left out if
the nearest manifest says so.
-/
import ImportChain.Files.Lookup
import ImportChain.Files.Manifest
import ImportChain.Request.Basic

namespace ImportChain

/-- Why nothing was found. -/
inductive SearchError where
  /-- Nothing at the place. -/
  | noFile
  /-- No usable package of this name. -/
  | noPackage (name : String)
  /-- A file without a canonical location. -/
  | notCanonical
  deriving Repr, DecidableEq, Inhabited

/-- What is said of a search without success. The last text stands for the
message of the file system, which is not worded here; nothing depends on how it
reads. -/
def SearchError.text : SearchError → String
  | .noFile => "File not found"
  | .noPackage name => "Cannot find package '" ++ name ++ "' in node_modules"
  | .notCanonical => "File has no canonical location"

/-- What a search gives. -/
inductive Found where
  | file (location : String)
  | ignored
  deriving Repr, DecidableEq, Inhabited

namespace Search

/-! ## At one place -/

/-- The file at a place: the place itself, or else the first of its
extensions that is a file. -/
def fileAt? (v : View) (l : Lookup) (place : String) : Option String :=
  if v.isFile place then some place
  else (l.extensions.map (place ++ ·)).find? v.isFile

/-- The file that an entry of a manifest names. -/
def entryAt? (v : View) (l : Lookup) (place : String) : Option String :=
  (fileAt? v l place).or (fileAt? v l (Location.join place "index"))

/-- The file that the manifest of a directory names. -/
def mainFile? (v : View) (l : Lookup) (dir : String) : Option String :=
  match Manifest.read? v (Manifest.location dir) with
  | some manifest => l.mainFields.findSome? fun field =>
      match (manifest.field? field).bind Json.str? with
      | some entry => entryAt? v l (Location.join dir entry)
      | none => none
  | none => none

/-- The file that stands for a directory. -/
def directoryFile? (v : View) (l : Lookup) (dir : String) : Option String :=
  (mainFile? v l dir).or (fileAt? v l (Location.join dir "index"))

/-- The file for a place that may be a file or a directory. -/
def place? (v : View) (l : Lookup) (place : String) : Option String :=
  match fileAt? v l place with
  | some file => some file
  | none => if v.isDir place then directoryFile? v l place else none

/-- Whether the nearest manifest of a file, whose location is canonical,
leaves it out. -/
def isLeftOut (v : View) (file : String) : Bool :=
  match (Location.parent? file).bind (Manifest.nearest? v) with
  | some manifest => Manifest.leavesOutFile v manifest file
  | none => false

/-- What a file gives. -/
def settle (v : View) (l : Lookup) (file : String) : Except SearchError Found :=
  match v.canonical? file with
  | none => .error .notCanonical
  | some file => .ok (if l.browserMaps && isLeftOut v file then .ignored else .file file)

/-- What a place gives. -/
def atPlace (v : View) (l : Lookup) (place : String) : Except SearchError Found :=
  match place? v l place with
  | some file => settle v l file
  | none => .error .noFile

/-! ## In packages -/

/-- The file that the exports of a package name for a request. -/
def exportedFile? (v : View) (dir : String) (subpath : Option String) : Option String := do
  let manifest ← Manifest.read? v (Manifest.location dir)
  let exports ← manifest.field? "exports"
  let entry ← Manifest.exportEntry exports subpath
  let file := Location.join dir entry
  if v.isFile file then some file else none

/-- The directory of a package below a directory. -/
def packageDir (dir name : String) : String :=
  Location.join (Location.join dir "node_modules") name

/-- What a package gives for a request; nothing lets the search go on in the
directories above. -/
def inPackage (v : View) (l : Lookup) (dir : String) (r : PackageRequest) :
    Option (Except SearchError Found) :=
  match exportedFile? v dir r.subpath with
  | some file => some (settle v l file)
  | none =>
    match atPlace v l (r.subpath.elim dir (Location.join dir)) with
    | .ok found => some (.ok found)
    | .error _ => none

/-- What the packages of directories give, the first directory first. -/
def inDirectories (v : View) (l : Lookup) (r : PackageRequest) :
    List String → Except SearchError Found
  | [] => .error (.noPackage r.name)
  | dir :: above =>
    let package := packageDir dir r.name
    match if v.isDir package then inPackage v l package r else none with
    | some answer => answer
    | none => inDirectories v l r above

/-- What a bare request gives. -/
def bare (v : View) (l : Lookup) (context request : String) : Except SearchError Found :=
  inDirectories v l (.ofText request) (Location.ancestors context)

/-! ## Requests -/

/-- What a request gives that no alias changes any more. -/
def direct (v : View) (l : Lookup) (context request : String) : Except SearchError Found :=
  if isDotted request then atPlace v l (Location.join context request)
  else if Path.isAbsolute request.toList then atPlace v l request
  else bare v l context request

/-- Whether the nearest manifest of the directory leaves out a bare
request. -/
def isBareLeftOut (v : View) (l : Lookup) (context request : String) : Bool :=
  l.browserMaps && isBare request &&
    match Manifest.nearest? v context with
    | some manifest => Manifest.leavesOutModule v manifest request
    | none => false

/-- What a request without a query gives. -/
def search (v : View) (l : Lookup) (context request : String) : Except SearchError Found :=
  match Aliased.ofRequest request l.aliases with
  | .replaced target => direct v l context target
  | .ignored => .ok .ignored
  | .asWritten =>
    if isBareLeftOut v l context request then .ok .ignored else direct v l context request

end Search

/-! ## Answers -/

/-- What is told of a file besides its path. -/
def View.dataOf (v : View) (file query : String) : Json :=
  .obj (ContextInfo.textField "descriptionFilePath"
      ((Location.parent? file).bind (Manifest.nearest? v))
    ++ [("path", .str file), ("query", .str query)])

/-- What a search gives, with the query that the request ended in. -/
def Resolution.ofFound (v : View) (query : String) : Found → Resolution
  | .file file => .resolved (file ++ query) (some (v.dataOf file query))
  | .ignored => .ignored

/-- A question answered by looking at a disk. -/
def View.answer (v : View) : Delegate := fun call =>
  let (path, query) := Request.splitQuery call.request
  match Search.search v (.ofOptions call.kind call.options) call.context path with
  | .ok found => .ok (.ofFound v query found)
  | .error e => .error ⟨call.request, call.context, e.text⟩

end ImportChain
