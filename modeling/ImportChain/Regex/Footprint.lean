/-
ImportChain.Regex.Footprint — how large the automaton of a pattern is.

The automaton has a state for every character, set and anchor, further
states where copies and branches begin and end, and two for every group.
`compiledSize` is what it takes in bytes together with its list of groups;
the reader refuses what is too large.
-/
import ImportChain.Regex.Pattern

namespace ImportChain.Regex

/-- What a part of an automaton takes: its states, the bytes beyond them,
and whether it ends in a branching state, to which every edge adds bytes. -/
structure Footprint where
  states : Nat
  bytes : Nat
  branchingEnd : Bool
  deriving Repr, DecidableEq

namespace Footprint

/-- The bytes of one edge out of a branching state. -/
def edge : Nat := 4

/-- The bytes of a state. -/
def state : Nat := 32

/-- The bytes of one range of characters. -/
def range : Nat := 8

/-- A single state that does not branch. -/
def simple : Footprint := ⟨1, 0, false⟩

/-- The bytes of an edge out of the end. -/
def leaving (f : Footprint) : Nat := if f.branchingEnd then edge else 0

/-- One part and then another. -/
def andThen (f g : Footprint) : Footprint :=
  ⟨f.states + g.states, f.bytes + f.leaving + g.bytes, g.branchingEnd⟩

/-- A fixed number of copies. -/
def copies (f : Footprint) : Nat → Footprint
  | 0 => simple
  | n + 1 => ⟨(n + 1) * f.states, (n + 1) * f.bytes + n * f.leaving, f.branchingEnd⟩

/-- Copies of a part that may match the empty text or not. -/
def repeated (f : Footprint) (mayBeEmpty : Bool) (least : Nat) : Option Nat → Footprint
  | none =>
    if least = 0 then
      if mayBeEmpty then ⟨f.states + 3, f.bytes + f.leaving + 4 * edge, false⟩
      else ⟨f.states + 1, f.bytes + f.leaving + edge, true⟩
    else
      let run := f.copies least
      ⟨run.states + 1, run.bytes + f.leaving + edge, true⟩
  | some most =>
    if least = 0 ∧ most = 1 then ⟨f.states + 2, f.bytes + f.leaving + 2 * edge, false⟩
    else if least = most then f.copies least
    else
      let run := f.copies least
      let further := most - least
      ⟨run.states + 1 + further * (f.states + 1),
        run.bytes + run.leaving + further * (f.bytes + 2 * edge + f.leaving), false⟩

end Footprint

namespace Pattern

mutual

/-- The automaton of a pattern. -/
def footprint : Pattern → Footprint
  | .empty => .simple
  | .unused _ => .simple
  | .char _ => .simple
  | .set members => ⟨1, members.length * Footprint.range, false⟩
  | .look _ => .simple
  | .repeated least most body => (footprint body).repeated body.matchesEmpty least most
  | .group _ body =>
    let inner := footprint body
    ⟨inner.states + 2, inner.bytes + inner.leaving, false⟩
  | .seq parts => footprintSeq parts
  | .alt branches =>
    let (states, bytes) := footprintAlt branches
    ⟨states + 2, bytes, false⟩

def footprintSeq : List Pattern → Footprint
  | [] => .simple
  | [part] => footprint part
  | part :: rest => (footprint part).andThen (footprintSeq rest)

/-- The states and bytes of all branches with the edges to and from them. -/
def footprintAlt : List Pattern → Nat × Nat
  | [] => (0, 0)
  | branch :: rest =>
    let inner := footprint branch
    let (states, bytes) := footprintAlt rest
    (inner.states + states, inner.bytes + inner.leaving + Footprint.edge + bytes)

end

mutual

/-- The number of the last group that is used, from 1 on; 0 if none is. -/
def lastGroup : Pattern → Nat
  | .repeated _ _ body => lastGroup body
  | .group _ body => lastGroup body + 1
  | .seq parts => lastGroupOfAll parts
  | .alt branches => lastGroupOfAll branches
  | _ => 0

def lastGroupOfAll : List Pattern → Nat
  | [] => 0
  | p :: rest =>
    match lastGroupOfAll rest with
    | 0 => lastGroup p
    | last => groupCount p + last

end

mutual

/-- The bytes of the names of the groups that are used. -/
def nameBytes : Pattern → Nat
  | .repeated _ _ body => nameBytes body
  | .group name body =>
    (match name with | some n => n.utf8ByteSize + 4 | none => 0) + nameBytes body
  | .seq parts => nameBytesOfAll parts
  | .alt branches => nameBytesOfAll branches
  | _ => 0

def nameBytesOfAll : List Pattern → Nat
  | [] => 0
  | p :: rest => nameBytes p + nameBytesOfAll rest

end

/-- The bytes of the list of groups. It has a place for every group up to the
last one that is used. -/
def groupBytes (pattern : Pattern) : Nat := 16 * pattern.lastGroup + pattern.nameBytes

/-- The bytes of the automaton that searches for a pattern. -/
def compiledSize (pattern : Pattern) : Nat :=
  let whole := footprint (.group none pattern)
  (whole.states + 1) * Footprint.state + whole.bytes + groupBytes (.group none pattern)

end Pattern

end ImportChain.Regex
