/-
ImportChain.Rule.Condition — conditions on facts, as written and ready to
be checked.

A written condition is a text that the fact begins with, a regular
expression searched for in it, or a combination of conditions; a list
means any of its members. `compile` fails at the first regular expression,
from left to right, that is none.

`check` lets a missing condition pass; a condition on a missing or empty
fact never does.
-/
import ImportChain.Error
import ImportChain.Text
import ImportChain.Regex.Marked
import ImportChain.Regex.Reader

namespace ImportChain

/-- A condition as written. -/
inductive Condition where
  /-- The fact begins with this text. -/
  | beginsWith (text : String)
  /-- The pattern is found in the fact. -/
  | regex (pattern : String)
  | all (parts : List Condition)
  | any (parts : List Condition)
  | not (part : Condition)
  /-- Any of the members, written without a key. -/
  | list (parts : List Condition)
  deriving Repr, Inhabited

/-- A condition ready to be checked. -/
inductive Matcher where
  | beginsWith (text : String)
  | regex (pattern : Regex.Pattern)
  | all (parts : List Matcher)
  | any (parts : List Matcher)
  | not (part : Matcher)
  deriving Repr

namespace Condition

/-- What is said of a regular expression that is none. It stands for the message
of whoever compiles the expression, which is not worded here; nothing depends on
how it reads. -/
def regexMessage : String := "not a regular expression"

mutual

/-- A condition made ready. -/
def compile : Condition → Except RuleError Matcher
  | .beginsWith text => .ok (.beginsWith text)
  | .regex pattern =>
    match Regex.Pattern.ofText? pattern with
    | some p => .ok (.regex p)
    | none => .error (.condition pattern regexMessage)
  | .all parts => (compileAll parts).map .all
  | .any parts => (compileAll parts).map .any
  | .list parts => (compileAll parts).map .any
  | .not part => (compile part).map .not

def compileAll : List Condition → Except RuleError (List Matcher)
  | [] => .ok []
  | part :: rest => do
    let first ← compile part
    let others ← compileAll rest
    pure (first :: others)

end

end Condition

namespace Matcher

mutual

/-- Whether a value satisfies the condition. -/
def holds (value : String) : Matcher → Bool
  | .beginsWith text => Text.startsWith text.toList value.toList
  | .regex pattern => pattern.isMatch value
  | .all parts => holdsAll value parts
  | .any parts => holdsAny value parts
  | .not part => !holds value part

def holdsAll (value : String) : List Matcher → Bool
  | [] => true
  | part :: rest => holds value part && holdsAll value rest

def holdsAny (value : String) : List Matcher → Bool
  | [] => false
  | part :: rest => holds value part || holdsAny value rest

end

/-- Whether a fact passes a condition, either of which may be missing. -/
def check (condition : Option Matcher) (fact : Option String) : Bool :=
  match condition with
  | none => true
  | some m =>
    match fact with
    | some value => value ≠ "" && m.holds value
    | none => false

end Matcher

end ImportChain
