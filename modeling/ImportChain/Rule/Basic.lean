/-
ImportChain.Rule.Basic — rules as written in a configuration.

A rule has conditions on a resource, loaders to use, settings, and rules
below it: nested ones, which apply besides it, and branches, of which the
first that passes applies.
-/
import ImportChain.Rule.Condition
import ImportChain.Json.Basic

namespace ImportChain

/-- Where a rule's loaders stand: those of `pre` run first and are last in
the chain, those of `post` run last and are first in it. -/
inductive Enforce where
  | pre
  | normal
  | post
  deriving Repr, DecidableEq, Inhabited

def Enforce.text : Enforce → String
  | .pre => "pre"
  | .normal => "normal"
  | .post => "post"

/-- One entry of what a rule uses. -/
inductive UseItem where
  /-- Loaders as in a request, joined by `!`. -/
  | request (text : String)
  | loader (name : String) (options : Option Json) (ident : Option String)
  deriving Repr, Inhabited

/-- What a rule uses: one entry, or a list of them. -/
inductive Use where
  | one (item : UseItem)
  | many (items : List UseItem)
  deriving Repr, Inhabited

/-- What a rule says by itself. -/
structure RuleBody where
  test : Option Condition := none
  includes : Option Condition := none
  excludes : Option Condition := none
  resource : Option Condition := none
  realResource : Option Condition := none
  resourceQuery : Option Condition := none
  issuer : Option Condition := none
  compiler : Option Condition := none
  loader : Option String := none
  options : Option Json := none
  uses : Option Use := none
  enforce : Option Enforce := none
  moduleType : Option String := none
  parser : Option Json := none
  generator : Option Json := none
  resolve : Option Json := none
  sideEffects : Option Json := none
  deriving Inhabited

/-- A rule as written. -/
structure Rule where
  body : RuleBody
  /-- Rules that apply besides this one. -/
  rules : List Rule := []
  /-- Rules of which the first that passes applies. -/
  oneOf : List Rule := []
  deriving Inhabited

/-- What rules are matched on. -/
structure Facts where
  /-- The path of the resource, or the match-resource in its place. -/
  resource : String := ""
  /-- The path of the resource itself. -/
  realResource : String := ""
  /-- The query with its `?`, or nothing. -/
  resourceQuery : String := ""
  /-- The path of the module that imports. -/
  issuer : Option String := none
  /-- The name of the compiler that imports. -/
  compiler : Option String := none
  deriving Repr, DecidableEq, Inhabited

end ImportChain
