/-
ImportChain.Rule.Defaults — the rules that every configuration starts from,
and the module types that they can give.

Everything is a script unless the end of its name says otherwise; `.mjs`
files look for their entry under other names.
-/
import ImportChain.Rule.Basic

namespace ImportChain

/-- The type of a module for which no rule sets one. -/
def defaultModuleType : String := "javascript/auto"

/-- The types for which parsers and generators are built in. -/
def builtinModuleTypes : List String :=
  ["javascript/auto", "javascript/dynamic", "javascript/esm", "json", "webassembly/experimental"]

/-- The rules before the configured ones. -/
def defaultRules : List Rule := [
  { body := { moduleType := some "javascript/auto", resolve := some .empty } },
  { body := {
      test := some (.regex "(?i)\\.mjs$")
      moduleType := some "javascript/esm"
      resolve := some (.obj [("mainFields", .arr [.str "browser", .str "main"])]) } },
  { body := { test := some (.regex "(?i)\\.json$"), moduleType := some "json" } },
  { body := {
      test := some (.regex "(?i)\\.wasm$")
      moduleType := some "webassembly/experimental" } }]

end ImportChain
