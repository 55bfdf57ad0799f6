/-
ImportChain.Config.Load — the configuration that a directory has.

A file that is named counts; without one, the configuration file of the
directory does if it is there, and the defaults if it is not. The context
of a configuration file is relative to the directory of the file.
-/
import ImportChain.Config.Basic
import ImportChain.Files.Location
import ImportChain.Files.View

namespace ImportChain.Config

/-- The name of a configuration file in its directory. -/
def fileName : String := "modfactory.config.json"

/-- What is said of a file that cannot be read as text. -/
def unreadableMessage : String := "not a readable text file"

/-- What is said of a text that is no configuration. -/
def malformedMessage : String := "not a configuration"

/-- The location of the configuration file, if there is one. -/
def location? (v : View) (dir : String) (named : Option String) : Option String :=
  match named with
  | some file => some (Location.join dir file)
  | none =>
    let file := Location.join dir fileName
    if v.isFile file then some file else none

/-- The configuration with its context as seen from a directory, canonical if
the context is there. -/
def placedIn (v : View) (base : String) (c : Config) : Config :=
  let context := Location.join base c.context
  { c with context := (v.canonical? context).getD context }

def ofFile (v : View) (dir file : String) : Except Error Config :=
  match v.read? file with
  | none => .error (.configRead file unreadableMessage)
  | some text =>
    match ofText? text with
    | none => .error (.configParse file malformedMessage)
    | some c => .ok (c.placedIn v ((Location.parent? file).getD dir))

/-- The configuration that a directory has, or that a named file holds. -/
def load (v : View) (dir : String) (named : Option String) : Except Error Config :=
  match location? v dir named with
  | some file => ofFile v dir file
  | none => .ok { context := dir }

end ImportChain.Config
