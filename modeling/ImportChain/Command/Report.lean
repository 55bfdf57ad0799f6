/-
ImportChain.Command.Report — results as a reader sees them, and as JSON.

A report for a reader has a line for each fact, its value in one column,
and lists that are indented. A report in JSON says whether all went well
and which version of the form it has.
-/
import ImportChain.Command.Help
import ImportChain.Module
import ImportChain.Request.Basic
import ImportChain.Rule.Set
import ImportChain.Rule.Settings

namespace ImportChain.Command

/-! ## Lines -/

def labelWidth : Nat := 16

/-- A fact on a line of its own. -/
def line (label value : String) : String := "  " ++ padded labelWidth label ++ value ++ "\n"

/-- A fact that may be missing. -/
def line? (label : String) : Option String → String
  | some value => line label value
  | none => ""

def listing (label : String) (entries : List String) : String :=
  if entries.isEmpty then line label "(none)"
  else entries.foldl (fun out entry => out ++ "    " ++ entry ++ "\n") ("  " ++ label ++ "\n")

/-- Entries with their numbers, from 1. -/
def enumerated (entries : List String) : List String :=
  entries.zipIdx.map fun (entry, i) => String.ofList (Nat.toDigits 10 (i + 1)) ++ ". " ++ entry

/-- The numbered loaders of a chain. -/
def loaderListing (idents : List String) : String := listing "Loaders:" (enumerated idents)

/-! ## Reports for a reader -/

/-- The positions whose rule loaders a request suppresses. -/
def suppressed (s : Suppression) : List String :=
  (if s.dropsPre then ["pre"] else []) ++ (if s.dropsNormal then ["normal"] else [])
    ++ (if s.dropsPost then ["post"] else [])

/-- A request by its parts. -/
def requestReport (r : Request) : String :=
  line "Resource:" r.resource
    ++ line? "Match resource:" r.matchResource
    ++ (if (suppressed r.suppression).isEmpty then ""
      else line "Suppressed:" (", ".intercalate (suppressed r.suppression)))
    ++ loaderListing (r.loaders.map LoaderSpec.toIdent)

/-- A module, or that there is none. -/
def moduleReport : Option Module → String
  | none => "Request ignored\n"
  | some (.raw m) => line "Ignored:" m.readableIdentifier ++ line "Identifier:" m.identifier
  | some (.normal d) =>
    line "Request:" d.request
      ++ line "User request:" d.userRequest
      ++ line "Resource:" d.resource
      ++ line? "Match resource:" d.matchResource
      ++ line "Type:" d.moduleType
      ++ loaderListing (d.loaders.map ResolvedLoader.toIdent)

/-- The settings that effects contribute, one over the other. -/
def settingsOf (effects : List RuleEffect) : Settings :=
  Settings.empty.applyAll (effects.filterMap fun
    | .setting key value => some (key, value)
    | _ => none)

/-- The loaders that effects contribute, each with its position. -/
def loaderEntries (effects : List RuleEffect) : List String :=
  effects.filterMap fun
    | .use loader enforce => some ("[" ++ enforce.text ++ "] " ++ loader.toIdent)
    | .malformedUse loader found enforce =>
      some ("[" ++ enforce.text ++ "] " ++ loader ++ " (malformed options: " ++ found ++ ")")
    | .setting _ _ => none

/-- What rules contribute to a resource. -/
def effectsReport (resource : String) (effects : List RuleEffect) : String :=
  line "Resource:" resource
    ++ listing "Settings:"
      ((settingsOf effects).values.map fun (key, value) => key ++ " = " ++ value.canonical)
    ++ listing "Loaders:" (loaderEntries effects)

/-! ## Reports in JSON -/

def successJson (facts : List (String × Json)) : Json :=
  .obj ([("ok", .bool true), ("schemaVersion", .int schemaVersion)] ++ facts)

def failureJson (code message : String) : Json :=
  .obj [("error", .obj [("code", .str code), ("message", .str message)]), ("ok", .bool false)]

/-- A report as it is printed. -/
def printed (report : Json) : String := report.pretty ++ "\n"

end ImportChain.Command
