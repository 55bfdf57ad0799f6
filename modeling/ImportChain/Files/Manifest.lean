/-
ImportChain.Files.Manifest — what `package.json` says about a package.

A manifest that cannot be read, or that is no JSON, says nothing. Its
`browser` map can leave out modules by name and files of the package by
location; its `exports` name the entry for each subpath, possibly by
condition.

Conditions are tried in the order `browser`, `import`, `default`,
`require`, and one that leads nowhere does not hide a later one.
-/
import ImportChain.Files.Location
import ImportChain.Files.View
import ImportChain.Json.Reader

namespace ImportChain.Manifest

/-- The name of a manifest in its directory. -/
def fileName : String := "package.json"

def location (dir : String) : String := Location.join dir fileName

def read? (v : View) (location : String) : Option Json := (v.read? location).bind Json.ofText?

/-- The location of the manifest of a directory, or else of the nearest
directory above it that has one. -/
def nearest? (v : View) (dir : String) : Option String :=
  ((Location.ancestors dir).map location).find? v.isFile

/-! ## Left out for browsers -/

/-- Whether a manifest leaves out a module by its name. -/
def leavesOut (manifest : Json) (name : String) : Bool :=
  ((manifest.field? "browser").bind (·.field? name)) = some (.bool false)

/-- The keys under which a manifest leaves out files of its own. -/
def leftOutFiles (manifest : Json) : List String :=
  match (manifest.field? "browser").bind Json.obj? with
  | some fields => (fields.filter fun (key, value) =>
      key.toList.head? = some '.' && value = .bool false).map (·.1)
  | none => []

/-- Whether a location is that of a file, whose own location is canonical. -/
def isLocationOf (v : View) (file location : String) : Bool :=
  Location.sameParts location file ||
    match v.canonical? location with
    | some c => Location.sameParts c file
    | none => false

/-- Whether the manifest at a location leaves out a module by its name. -/
def leavesOutModule (v : View) (location name : String) : Bool :=
  match read? v location with
  | some manifest => leavesOut manifest name
  | none => false

/-- Whether the manifest at a location leaves out a file. -/
def leavesOutFile (v : View) (location file : String) : Bool :=
  match Location.parent? location, read? v location with
  | some root, some manifest =>
    (leftOutFiles manifest).any fun key => isLocationOf v file (Location.join root key)
  | _, _ => false

/-! ## Exports -/

/-- The conditions of an export, the first choice first. -/
def conditions : List String := ["browser", "import", "default", "require"]

/-- The entry among those that conditions lead to. -/
def firstTarget (targets : List (String × Option String)) : Option String :=
  conditions.findSome? fun condition => (KeyMap.get? targets condition).join

mutual

/-- The entry that an export leads to. -/
def exportTarget : Json → Option String
  | .str entry => some entry
  | .obj fields => firstTarget (exportTargets fields)
  | _ => none

/-- Each condition with the entry that it leads to. -/
def exportTargets : List (String × Json) → List (String × Option String)
  | [] => []
  | (condition, value) :: rest => (condition, exportTarget value) :: exportTargets rest

end

def exportKey : Option String → String
  | some subpath => "./" ++ subpath
  | none => "."

/-- The entry that exports name for a subpath of the package, or for the
package itself. The package itself may also be named by a text or by
conditions, without a key. -/
def exportEntry (exports : Json) (subpath : Option String) : Option String :=
  let key := exportKey subpath
  match exports with
  | .str entry => if key = "." then some entry else none
  | .obj fields =>
    match KeyMap.get? fields key with
    | some value => exportTarget value
    | none =>
      if key = "." && !(fields.any fun (k, _) => k.toList.head? = some '.') then
        exportTarget exports
      else none
  | _ => none

end ImportChain.Manifest
