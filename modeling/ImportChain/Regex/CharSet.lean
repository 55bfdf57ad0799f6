/-
ImportChain.Regex.CharSet — sets of characters as ranges of code points.

`canonical` sorts the ranges and merges those that overlap or touch;
`negated` has one range for every gap between canonical ranges and never
offers a surrogate. Between U+D7FF and U+E000 the gap holds no character;
its range is empty and counts as one all the same.
Letters are folded in ASCII only, a range that meets the small letters by
its small letters alone.
-/

namespace ImportChain.Regex

/-- The code points from `first` to `last`, both included. -/
structure Range where
  first : Nat
  last : Nat
  deriving Repr, DecidableEq

/-- The range of the other case, if the range has ASCII letters. -/
def Range.folded? (r : Range) : Option Range :=
  let meet (low high : Char) : Option Range :=
    let first := max r.first low.toNat
    let last := min r.last high.toNat
    if first ≤ last then some ⟨first, last⟩ else none
  match meet 'a' 'z' with
  | some ⟨first, last⟩ => some ⟨first - 32, last - 32⟩
  | none =>
    match meet 'A' 'Z' with
    | some ⟨first, last⟩ => some ⟨first + 32, last + 32⟩
    | none => none

/-- A set of characters. -/
abbrev CharSet := List Range

namespace CharSet

/-- The largest code point. -/
def maximum : Nat := 0x10FFFF

def single (c : Char) : Range := ⟨c.toNat, c.toNat⟩

def between (a b : Char) : Range := ⟨a.toNat, b.toNat⟩

def contains (set : CharSet) (c : Char) : Bool :=
  set.any fun r => r.first ≤ c.toNat && c.toNat ≤ r.last

/-! ## Canonical form -/

/-- `r` put in its place among ranges in order. -/
def place (r : Range) : CharSet → CharSet
  | [] => [r]
  | s :: rest =>
    if r.first < s.first ∨ (r.first = s.first ∧ r.last ≤ s.last) then r :: s :: rest
    else s :: place r rest

/-- Ranges in order, where neighbours that overlap or touch are merged. -/
def mergeFrom (r : Range) : CharSet → CharSet
  | [] => [r]
  | s :: rest =>
    if s.first ≤ r.last + 1 then mergeFrom ⟨r.first, max r.last s.last⟩ rest
    else r :: mergeFrom s rest

def canonical (set : CharSet) : CharSet :=
  match set.foldr place [] with
  | [] => []
  | r :: rest => mergeFrom r rest

/-! ## Case and complement -/

/-- The set together with its letters in the other case. -/
def folded (set : CharSet) : CharSet := canonical (set ++ set.filterMap Range.folded?)

/-- The character after a code point. -/
def next (n : Nat) : Nat := if n = 0xD7FF then 0xE000 else n + 1

/-- The character before a code point. -/
def previous (n : Nat) : Nat := if n = 0xE000 then 0xD7FF else n - 1

/-- What lies after a range that ends with `last`: the gaps between it and
the ranges in order behind it, and what comes after the last of these. -/
def gapsAfter (last : Nat) : CharSet → CharSet
  | [] => if last < maximum then [⟨next last, maximum⟩] else []
  | r :: rest => ⟨next last, previous r.first⟩ :: gapsAfter r.last rest

/-- All other characters. -/
def negated (set : CharSet) : CharSet :=
  match canonical set with
  | [] => [⟨0, maximum⟩]
  | r :: rest =>
    if 0 < r.first then ⟨0, previous r.first⟩ :: gapsAfter r.last rest
    else gapsAfter r.last rest

/-! ## Named sets -/

def digit : CharSet := [between '0' '9']

def space : CharSet := [⟨9, 13⟩, single ' ']

def word : CharSet := [between '0' '9', between 'A' 'Z', single '_', between 'a' 'z']

/-- The set with this name between `[:` and `:]`. -/
def named? (name : List Char) : Option CharSet :=
  match String.ofList name with
  | "alnum" => some [between '0' '9', between 'A' 'Z', between 'a' 'z']
  | "alpha" => some [between 'A' 'Z', between 'a' 'z']
  | "ascii" => some [⟨0, 127⟩]
  | "blank" => some [⟨9, 9⟩, single ' ']
  | "cntrl" => some [⟨0, 31⟩, ⟨127, 127⟩]
  | "digit" => some digit
  | "graph" => some [between '!' '~']
  | "lower" => some [between 'a' 'z']
  | "print" => some [between ' ' '~']
  | "punct" => some [between '!' '/', between ':' '@', between '[' '`', between '\x7b' '~']
  | "space" => some space
  | "upper" => some [between 'A' 'Z']
  | "word" => some word
  | "xdigit" => some [between '0' '9', between 'A' 'F', between 'a' 'f']
  | _ => none

end CharSet

end ImportChain.Regex
