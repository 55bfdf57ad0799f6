/-
ImportChain.Regex.Pattern — regular expressions.

`Look.holds` says where a condition on a place is met, by the characters
around the place. `nesting` measures how deep a pattern is, and
`groupCount` how many groups it is written with.
-/
import ImportChain.Regex.CharSet

namespace ImportChain.Regex

/-- A condition on a place in a text. -/
inductive Look where
  | start
  | finish
  | lineStart
  | lineEnd
  | anyLineStart
  | anyLineEnd
  | wordBoundary
  | notWordBoundary
  | wordStart
  | wordEnd
  | wordStartHalf
  | wordEndHalf
  deriving Repr, DecidableEq

/-- A regular expression. -/
inductive Pattern where
  /-- The empty text. -/
  | empty
  /-- No copies of a part with so many groups, hence the empty text. The
  groups have their numbers all the same. -/
  | unused (groups : Nat)
  /-- One character. -/
  | char (c : Char)
  /-- Any character of a set. -/
  | set (members : CharSet)
  /-- The empty text at certain places. -/
  | look (kind : Look)
  /-- At least `least` and, if there is a `most`, at most so many copies. -/
  | repeated (least : Nat) (most : Option Nat) (body : Pattern)
  /-- A capturing group, possibly with a name. -/
  | group (name : Option String) (body : Pattern)
  /-- One after the other. -/
  | seq (parts : List Pattern)
  /-- Any one of them. -/
  | alt (branches : List Pattern)
  deriving Repr

/-! ## Places -/

def isWord (c : Char) : Bool := CharSet.word.contains c

/-- Whether a condition holds between two characters, either of which is
missing at an end of the text. -/
def Look.holds (before after : Option Char) (kind : Look) : Bool :=
  let wordBefore := before.any isWord
  let wordAfter := after.any isWord
  match kind with
  | .start => before.isNone
  | .finish => after.isNone
  | .lineStart => before.isNone || before == some '\n'
  | .lineEnd => after.isNone || after == some '\n'
  | .anyLineStart =>
    before.isNone || before == some '\n' || (before == some '\r' && after != some '\n')
  | .anyLineEnd =>
    after.isNone || after == some '\r' || (after == some '\n' && before != some '\r')
  | .wordBoundary => wordBefore != wordAfter
  | .notWordBoundary => wordBefore == wordAfter
  | .wordStart => !wordBefore && wordAfter
  | .wordEnd => wordBefore && !wordAfter
  | .wordStartHalf => !wordBefore
  | .wordEndHalf => !wordAfter

/-! ## Making patterns -/

namespace Pattern

/-- One part stands for itself, no part for the empty text. -/
def ofParts : List Pattern → Pattern
  | [] => .empty
  | [part] => part
  | parts => .seq parts

/-- One branch stands for itself. -/
def ofBranches : List Pattern → Pattern
  | [branch] => branch
  | branches => .alt branches

mutual

/-- How many capturing groups a pattern is written with. -/
def groupCount : Pattern → Nat
  | .unused groups => groups
  | .repeated _ _ body => groupCount body
  | .group _ body => groupCount body + 1
  | .seq parts => groupCountOfAll parts
  | .alt branches => groupCountOfAll branches
  | _ => 0

def groupCountOfAll : List Pattern → Nat
  | [] => 0
  | p :: rest => groupCount p + groupCountOfAll rest

end

/-- Copies of a pattern; none stand for the empty text, one for itself. -/
def ofRepetition (least : Nat) (most : Option Nat) (body : Pattern) : Pattern :=
  if least = 0 ∧ most = some 0 then .unused body.groupCount
  else if least = 1 ∧ most = some 1 then body
  else .repeated least most body

mutual

/-- How many patterns enclose the innermost one. -/
def nesting : Pattern → Nat
  | .repeated _ _ body => nesting body + 1
  | .group _ body => nesting body + 1
  | .seq parts => nestingOfAll parts + 1
  | .alt branches => nestingOfAll branches + 1
  | _ => 0

def nestingOfAll : List Pattern → Nat
  | [] => 0
  | p :: rest => max (nesting p) (nestingOfAll rest)

end

mutual

/-- Whether the pattern matches the empty text somewhere. -/
def matchesEmpty : Pattern → Bool
  | .empty => true
  | .unused _ => true
  | .char _ => false
  | .set _ => false
  | .look _ => true
  | .repeated least _ body => least == 0 || matchesEmpty body
  | .group _ body => matchesEmpty body
  | .seq parts => allMatchEmpty parts
  | .alt branches => anyMatchesEmpty branches

def allMatchEmpty : List Pattern → Bool
  | [] => true
  | p :: rest => matchesEmpty p && allMatchEmpty rest

def anyMatchesEmpty : List Pattern → Bool
  | [] => false
  | p :: rest => matchesEmpty p || anyMatchesEmpty rest

end

end Pattern

end ImportChain.Regex
