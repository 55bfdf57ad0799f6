/-
ImportChain.Command.Help — what the program says about itself.

A page has a line about its topic, a line of usage, and sections of rows.
The second column of a section stands two blanks right of the widest entry
in the first.
-/
import ImportChain.Command.Arguments

namespace ImportChain.Command

/-! ## Versions -/

/-- The name of the program. -/
def programName : String := "modfactory"

/-- The version of the program. -/
def versionNumber : String := "0.2.0"

/-- The version of the JSON that the program prints. -/
def schemaVersion : Nat := 1

def versionText : String := programName ++ " " ++ versionNumber

/-! ## Pages -/

def padded (width : Nat) (text : String) : String :=
  text ++ String.ofList (List.replicate (width - text.length) ' ')

/-- A section of a page. -/
structure HelpSection where
  title : String
  rows : List (String × String)
  deriving Repr, DecidableEq

def HelpSection.text (s : HelpSection) : String :=
  let width := (s.rows.map (·.1.length)).foldl max 0
  s.rows.foldl
    (fun out (entry, about) => out ++ "  " ++ padded (width + 2) entry ++ about ++ "\n")
    ("\n" ++ s.title ++ ":\n")

/-- A page of help. -/
structure HelpPage where
  about : String
  usage : String
  sections : List HelpSection
  deriving Repr, DecidableEq

def HelpPage.text (p : HelpPage) : String :=
  (p.sections.map HelpSection.text).foldl (· ++ ·)
    (p.about ++ "\n\nUsage: " ++ programName ++ " " ++ p.usage ++ "\n")

/-! ## Rows -/

def CommandName.about : CommandName → String
  | .version => "Print version information"
  | .resolve => "Create the module for a request and print its descriptor"
  | .parse => "Split a request into match-resource, flags, inline loaders and resource"
  | .rules => "Show which rule effects apply to a resource"

def helpAbout : String := "Print this message or the help of the given subcommand(s)"

def Flag.row : Flag → String × String
  | .verbose => ("-v, --verbose...", "Increase logging verbosity (-v for DEBUG, -vv for TRACE)")
  | .json => ("    --json", "Emit JSON formatted output (stable, machine-readable)")
  | .help => ("-h, --help", "Print help")
  | .version => ("-V, --version", "Print version")

def ValueOption.row : ValueOption → String × String
  | .cwd => ("    --cwd <PATH>", "Override the working directory")
  | .issuer => ("    --issuer <PATH>", "Path of the importing module")
  | .config => ("    --config <PATH>",
      "Config file (defaults to modfactory.config.json in the working directory)")
  | .query => ("    --query <QUERY>", "Resource query, replacing any query on the path")

/-- The options of a command in the order of its page. -/
def optionRows : CommandName → List (String × String)
  | .resolve => [ValueOption.issuer.row, Flag.verbose.row, ValueOption.config.row, Flag.json.row,
      ValueOption.cwd.row, Flag.help.row]
  | .rules => [ValueOption.query.row, Flag.verbose.row, ValueOption.issuer.row, Flag.json.row,
      ValueOption.config.row, ValueOption.cwd.row, Flag.help.row]
  | _ => [Flag.verbose.row, Flag.json.row, ValueOption.cwd.row, Flag.help.row]

/-- The row of what a command works on. -/
def CommandName.subjectRow? : CommandName → Option (String × String)
  | .version => none
  | .resolve => some ("<REQUEST>",
      "Request as written in an import, e.g. \"style-loader!./a.css?inline\"")
  | .parse => some ("<REQUEST>", "Request as written in an import")
  | .rules => some ("<PATH>", "Resource path, optionally with a query")

/-! ## Topics -/

def CommandName.page (c : CommandName) : HelpPage where
  about := c.about
  usage := c.text ++ " [OPTIONS]" ++ (c.subjectRow?.map (" " ++ ·.1)).getD ""
  sections := (c.subjectRow?.map fun row => ⟨"Arguments", [row]⟩).toList
    ++ [⟨"Options", optionRows c⟩]

def Topic.page : Topic → HelpPage
  | .command c => c.page
  | .program =>
    { about := "Resolve bundler requests into module descriptors"
      usage := "[OPTIONS] [COMMAND]"
      sections := [
        ⟨"Commands", CommandName.all.map (fun c => (c.text, c.about)) ++ [("help", helpAbout)]⟩,
        ⟨"Options", [Flag.verbose.row, Flag.json.row, ValueOption.cwd.row, Flag.help.row,
          Flag.version.row]⟩] }
  | .help =>
    { about := helpAbout
      usage := "help [COMMAND]..."
      sections := [⟨"Arguments", [("[COMMAND]...", "Print help for the subcommand(s)")]⟩] }

end ImportChain.Command
