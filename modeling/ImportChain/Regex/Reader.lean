/-
ImportChain.Regex.Reader — regular expressions as text.

The reader keeps the groups that are open, the innermost first, and takes
one item after the other: a group's start or end, a bar, a repetition, a
class, an escape, an anchor or a plain character. Flags set by `(?i)` hold
to the end of the innermost open group.

Look-around, back-references and Unicode classes are refused, and so are
patterns whose groups or repetitions nest deeper than 50 and patterns whose
automaton takes more than ten mebibytes.
-/
import ImportChain.Regex.Footprint
import ImportChain.Regex.Letters
import ImportChain.Text

namespace ImportChain.Regex

/-! ## Flags and blanks -/

/-- The flags of a pattern. -/
structure Flags where
  /-- Letters match in either case. -/
  anyCase : Bool := false
  /-- Anchors match at every line. -/
  multiLine : Bool := false
  /-- The dot matches line breaks. -/
  dotAll : Bool := false
  /-- A carriage return ends lines as well. -/
  anyLineBreak : Bool := false
  /-- Blanks and comments are skipped. -/
  spaced : Bool := false
  deriving Repr, DecidableEq

def afterLine (s : List Char) : List Char := (s.dropWhile (· ≠ '\n')).drop 1

/-- The text after blanks and comments, with fuel for their number. -/
def skipBlanksFuel : Nat → List Char → List Char
  | 0, s => s
  | fuel + 1, c :: s =>
    if isBlank c then skipBlanksFuel fuel s
    else if c = '#' then skipBlanksFuel fuel (afterLine s)
    else c :: s
  | _ + 1, [] => []

/-- The text after blanks and comments, where they are skipped. -/
def Flags.skip (flags : Flags) (s : List Char) : List Char :=
  if flags.spaced then skipBlanksFuel s.length s else s

/-- The character that counts as the next one after the present one. Of the
blanks in between a single `#` is passed over. -/
def Flags.upcoming? (flags : Flags) (s : List Char) : Option Char :=
  if flags.spaced then
    match s.dropWhile isBlank with
    | '#' :: s => (s.dropWhile isBlank).head?
    | s => s.head?
  else s.head?

/-- A literal character. -/
def Flags.literal (flags : Flags) (c : Char) : Pattern :=
  let range := CharSet.single c
  match (if flags.anyCase then range.folded? else none) with
  | some other => .set (CharSet.canonical [range, other])
  | none => .char c

/-- Any character, as far as the dot goes. -/
def Flags.dot (flags : Flags) : Pattern :=
  if flags.dotAll then .set [⟨0, CharSet.maximum⟩]
  else if flags.anyLineBreak then .set [⟨0, 9⟩, ⟨11, 12⟩, ⟨14, CharSet.maximum⟩]
  else .set [⟨0, 9⟩, ⟨11, CharSet.maximum⟩]

/-- What `^` stands for. -/
def Flags.caret (flags : Flags) : Look :=
  if flags.multiLine then (if flags.anyLineBreak then .anyLineStart else .lineStart) else .start

/-- What `$` stands for. -/
def Flags.dollar (flags : Flags) : Look :=
  if flags.multiLine then (if flags.anyLineBreak then .anyLineEnd else .lineEnd) else .finish

def Flags.set? (flags : Flags) (letter : Char) (on : Bool) : Option Flags :=
  match letter with
  | 'i' => some { flags with anyCase := on }
  | 'm' => some { flags with multiLine := on }
  | 's' => some { flags with dotAll := on }
  | 'R' => some { flags with anyLineBreak := on }
  | 'x' => some { flags with spaced := on }
  | 'U' => some flags
  | 'u' => some flags
  | _ => none

/-- A list of flags up to a `:` or `)`: each letter once, one `-` before
those that are switched off. -/
def Flags.read? (flags : Flags) (negated dangling : Bool) (seen : List Char) :
    List Char → Option (Flags × List Char)
  | [] => none
  | c :: s =>
    if c = ':' ∨ c = ')' then if dangling then none else some (flags, c :: s)
    else if c = '-' then
      if negated then none else Flags.read? flags true true seen s
    else if c ∈ seen then none
    else
      match flags.set? c (!negated) with
      | some flags => Flags.read? flags negated false (c :: seen) s
      | none => none

/-! ## Numbers -/

def hexDigit? (c : Char) : Option Nat :=
  if c.isDigit then some (c.toNat - '0'.toNat)
  else if 'a' ≤ c ∧ c ≤ 'f' then some (c.toNat - 'a'.toNat + 10)
  else if 'A' ≤ c ∧ c ≤ 'F' then some (c.toNat - 'A'.toNat + 10)
  else none

def charOf? (n : Nat) : Option Char :=
  if n < 0xD800 ∨ (0xDFFF < n ∧ n ≤ CharSet.maximum) then some (Char.ofNat n) else none

/-- A fixed number of hexadecimal digits. -/
def readHexDigits? (flags : Flags) : Nat → Nat → List Char → Option (Nat × List Char)
  | 0, value, s => some (value, s)
  | count + 1, value, c :: s => do
    let digit ← hexDigit? c
    readHexDigits? flags count (value * 16 + digit) (flags.skip s)
  | _ + 1, _, [] => none

/-- Hexadecimal digits up to a closing brace, with fuel for their number. -/
def readHexBraced? (flags : Flags) : Nat → Option Nat → List Char → Option (Nat × List Char)
  | 0, _, _ => none
  | _ + 1, _, [] => none
  | fuel + 1, value, c :: s =>
    if c = '\x7d' then value.map fun value => (value, flags.skip s)
    else
      match hexDigit? c with
      | some digit =>
        readHexBraced? flags fuel (some (value.getD 0 * 16 + digit)) (flags.skip s)
      | none => none

/-- A character written by its code point. -/
def readHex? (flags : Flags) (count : Nat) (s : List Char) : Option (Char × List Char) := do
  let (value, rest) ← match flags.skip s with
    | '\x7b' :: s => readHexBraced? flags (s.length + 1) none (flags.skip s)
    | s => readHexDigits? flags count 0 s
  pure (← charOf? value, rest)

/-- Decimal digits, between which blanks may be skipped, with fuel for their
number. -/
def readDigitsFuel (flags : Flags) : Nat → List Char → List Char → List Char × List Char
  | 0, digits, s => (digits, s)
  | fuel + 1, digits, c :: s =>
    if c.isDigit then readDigitsFuel flags fuel (c :: digits) (flags.skip s)
    else (digits, c :: s)
  | _ + 1, digits, [] => (digits, [])

/-- A decimal number below `2 ^ 32`, with blanks around it. -/
def readDecimal? (flags : Flags) (s : List Char) : Option (Nat × List Char) :=
  let s := s.dropWhile isBlank
  let (digits, s) := readDigitsFuel flags s.length [] s
  let value := digits.foldr (fun c n => n * 10 + (c.toNat - '0'.toNat)) 0
  let rest := match s with
    | c :: _ => if isBlank c then flags.skip (s.dropWhile isBlank) else s
    | [] => []
  if digits = [] ∨ Nat.pow 2 32 ≤ value then none else some (value, rest)

/-! ## Escapes -/

def isEscapable (c : Char) : Bool :=
  c.toNat < 128 && !c.isAlphanum && c != '<' && c != '>'

/-- The letters and hyphens of a word boundary's name, in reverse, with fuel
for their number. -/
def readBoundaryName (flags : Flags) : Nat → List Char → List Char → List Char × List Char
  | 0, name, s => (name, s)
  | fuel + 1, name, c :: s =>
    if c.isAlpha ∨ c = '-' then readBoundaryName flags fuel (c :: name) (flags.skip s)
    else (name, c :: s)
  | _ + 1, name, [] => (name, [])

/-- A word boundary after its `\b`: `{start}`, `{end}` and their halves name
special ones; braces that do not begin with a letter are left alone. -/
def readBoundary? (flags : Flags) (s : List Char) : Option (Look × List Char) :=
  match s with
  | '\x7b' :: inner =>
    match flags.skip inner with
    | [] => none
    | c :: _ =>
      if !(c.isAlpha || c = '-') then some (.wordBoundary, s)
      else
        let (name, rest) := readBoundaryName flags inner.length [] (flags.skip inner)
        match rest with
        | '\x7d' :: rest =>
          match String.ofList name.reverse with
          | "start" => some (.wordStart, rest)
          | "end" => some (.wordEnd, rest)
          | "start-half" => some (.wordStartHalf, rest)
          | "end-half" => some (.wordEndHalf, rest)
          | _ => none
        | _ => none
  | _ => some (.wordBoundary, s)

/-- The pattern of an escape after its backslash. -/
def readEscape? (flags : Flags) : List Char → Option (Pattern × List Char)
  | [] => none
  | c :: s =>
    if isEscapable c then some (flags.literal c, s)
    else
      match c with
      | 'x' => (readHex? flags 2 s).map fun (c, s) => (flags.literal c, s)
      | 'u' => (readHex? flags 4 s).map fun (c, s) => (flags.literal c, s)
      | 'U' => (readHex? flags 8 s).map fun (c, s) => (flags.literal c, s)
      | 'd' => some (.set (CharSet.canonical CharSet.digit), s)
      | 's' => some (.set (CharSet.canonical CharSet.space), s)
      | 'w' => some (.set (CharSet.canonical CharSet.word), s)
      | 'D' => some (.set (CharSet.negated CharSet.digit), s)
      | 'S' => some (.set (CharSet.negated CharSet.space), s)
      | 'W' => some (.set (CharSet.negated CharSet.word), s)
      | 'a' => some (flags.literal '\x07', s)
      | 'f' => some (flags.literal '\x0c', s)
      | 't' => some (flags.literal '\t', s)
      | 'n' => some (flags.literal '\n', s)
      | 'r' => some (flags.literal '\r', s)
      | 'v' => some (flags.literal '\x0b', s)
      | 'A' => some (.look .start, s)
      | 'z' => some (.look .finish, s)
      | 'B' => some (.look .notWordBoundary, s)
      | '<' => some (.look .wordStart, s)
      | '>' => some (.look .wordEnd, s)
      | 'b' => (readBoundary? flags s).map fun (kind, s) => (.look kind, s)
      | _ => none

/-! ## Classes -/

/-- One item of a class. Letters stand for themselves alone here. -/
def readClassItem? (flags : Flags) : List Char → Option (Pattern × List Char)
  | [] => none
  | '\\' :: s => readEscape? flags s
  | c :: s => some (.char c, s)

/-- The characters of an item, if it stands for characters. -/
def itemRanges? : Pattern → Option CharSet
  | .char c => some [CharSet.single c]
  | .set members => some members
  | _ => none

/-- The one character of an item, if it is one. -/
def itemChar? : Pattern → Option Char
  | .char c => some c
  | _ => none

/-- A named set after its opening bracket, as in `:alpha:]`. -/
def readNamedSet? : List Char → Option (CharSet × List Char)
  | ':' :: s => do
    let (negated, s) := match s with
      | '^' :: s => (true, s)
      | s => (false, s)
    let (name, rest) ← Text.cutAt ':' s
    let rest ← Text.dropStart? [']'] rest
    let set ← CharSet.named? name
    pure (if negated then CharSet.negated set else CharSet.canonical set, rest)
  | _ => none

/-- An item or a range of a class. -/
def readClassRange? (flags : Flags) (s : List Char) : Option (CharSet × List Char) := do
  let (item, s) ← readClassItem? flags s
  match flags.skip s with
  | [] => none
  | c :: s =>
    if c ≠ '-' ∨ flags.upcoming? s = some ']' ∨ flags.upcoming? s = some '-' then
      pure (← itemRanges? item, c :: s)
    else
      let (last, s) ← readClassItem? flags (flags.skip s)
      let first ← itemChar? item
      let last ← itemChar? last
      if first ≤ last then pure ([CharSet.between first last], s) else none

/-- The items of a class up to its closing bracket, with fuel for their
number. -/
def readClassItems? (flags : Flags) : Nat → CharSet → List Char → Option (CharSet × List Char)
  | 0, _, _ => none
  | fuel + 1, members, s =>
    match flags.skip s with
    | [] => none
    | ']' :: s => some (members, s)
    | '[' :: s =>
      match readNamedSet? s with
      | some (set, s) => readClassItems? flags fuel (members ++ set) s
      | none => none
    | c :: s =>
      if (c = '&' ∨ c = '-' ∨ c = '~') ∧ s.head? = some c then none
      else
        match readClassRange? flags (c :: s) with
        | some (set, s) => readClassItems? flags fuel (members ++ set) s
        | none => none

/-- The hyphens at the start of a class, with fuel for their number. -/
def readHyphens (flags : Flags) : Nat → CharSet → List Char → CharSet × List Char
  | 0, members, s => (members, s)
  | fuel + 1, members, '-' :: s =>
    readHyphens flags fuel (CharSet.single '-' :: members) (flags.skip s)
  | _ + 1, members, s => (members, s)

/-- A class after its opening bracket. Hyphens, or else one closing bracket,
stand for themselves at the start. -/
def readClass? (flags : Flags) (s : List Char) : Option (Pattern × List Char) := do
  let (negated, s) := match flags.skip s with
    | '^' :: s => (true, flags.skip s)
    | s => (false, s)
  let (members, s) := readHyphens flags s.length [] s
  let (members, s) := match members, s with
    | [], ']' :: s => ([CharSet.single ']'], flags.skip s)
    | members, s => (members, s)
  let (members, s) ← readClassItems? flags (s.length + 1) members s
  let set := if flags.anyCase then CharSet.folded (CharSet.canonical members)
    else CharSet.canonical members
  pure (.set (if negated then CharSet.negated set else set), s)

/-! ## Groups -/

/-- A group that is open, with what comes before it. -/
structure OpenGroup where
  /-- The flags to return to when it closes. -/
  flags : Flags
  /-- Its name, if it captures. -/
  capture : Option (Option String)
  /-- The branches before it, the latest first. -/
  branches : List Pattern
  /-- The parts before it in its branch, the latest first. -/
  parts : List Pattern

/-- What has been read. -/
structure Progress where
  flags : Flags := {}
  /-- The groups that are open, the innermost first. -/
  groups : List OpenGroup := []
  /-- The branches of the innermost group, the latest first. -/
  branches : List Pattern := []
  /-- The parts of the present branch, the latest first. -/
  parts : List Pattern := []
  /-- The names that groups have. -/
  names : List String := []

/-- How deep patterns may nest. -/
def nestingLimit : Nat := 50

def sizeLimit : Nat := 10 * Nat.pow 2 20

namespace Progress

def push (p : Progress) (part : Pattern) : Progress := { p with parts := part :: p.parts }

def pattern (p : Progress) : Pattern :=
  Pattern.ofBranches (Pattern.ofParts p.parts.reverse :: p.branches).reverse

/-- A group begins; it may not be too deep. -/
def enter? (p : Progress) (flags : Flags) (capture : Option (Option String)) : Option Progress :=
  if p.groups.length < nestingLimit then
    some { p with
      flags
      groups := ⟨p.flags, capture, p.branches, p.parts⟩ :: p.groups
      branches := []
      parts := [] }
  else none

def leave? (p : Progress) : Option Progress :=
  match p.groups with
  | [] => none
  | g :: groups =>
    let whole := match g.capture with
      | some name => .group name p.pattern
      | none => p.pattern
    some { p with flags := g.flags, groups, branches := g.branches, parts := whole :: g.parts }

/-- The last part repeated. -/
def repeatLast? (p : Progress) (least : Nat) (most : Option Nat) : Option Progress :=
  match p.parts with
  | [] => none
  | last :: rest => some { p with parts := Pattern.ofRepetition least most last :: rest }

/-- A name of a group up to its `>`. -/
def readName? (p : Progress) (s : List Char) : Option (String × List Char) := do
  let (name, rest) ← Text.cutAt '>' s
  match name with
  | [] => none
  | c :: more =>
    let name := String.ofList (c :: more)
    if isNameStart c ∧ more.all isNamePart ∧ name ∉ p.names then pure (name, rest) else none

/-- A group after its opening bracket. -/
def openGroup? (p : Progress) (s : List Char) : Option (Progress × List Char) :=
  match p.flags.skip s with
  | '?' :: '=' :: _ => none
  | '?' :: '!' :: _ => none
  | '?' :: '<' :: '=' :: _ => none
  | '?' :: '<' :: '!' :: _ => none
  | '?' :: 'P' :: '<' :: s => named s
  | '?' :: '<' :: s => named s
  | '?' :: s =>
    match p.flags.read? false false [] s with
    | some (flags, ':' :: rest) => (p.enter? flags none).map (·, rest)
    | some (flags, ')' :: rest) =>
      if s.head? = some ')' then none else some ({ p with flags }, rest)
    | _ => none
  | s => (p.enter? p.flags (some none)).map (·, s)
where
  named (s : List Char) : Option (Progress × List Char) := do
    let (name, rest) ← p.readName? s
    let inner ← ({ p with names := name :: p.names }).enter? p.flags (some (some name))
    pure (inner, rest)

def afterReluctant : List Char → List Char
  | '?' :: s => s
  | s => s

/-- A counted repetition after its opening brace. -/
def readCount? (p : Progress) (s : List Char) : Option (Progress × List Char) := do
  let (least, s) ← readDecimal? p.flags (p.flags.skip s)
  let (most, s) ← match s with
    | ',' :: s =>
      match p.flags.skip s with
      | '\x7d' :: s => pure (none, '\x7d' :: s)
      | s => (readDecimal? p.flags s).map fun (most, s) => (some most, s)
    | s => pure (some least, s)
  let s ← Text.dropStart? ['\x7d'] s
  if most.any (· < least) then none
  else pure (← p.repeatLast? least most, afterReluctant (p.flags.skip s))

def step? (p : Progress) : List Char → Option (Progress × List Char)
  | [] => none
  | '(' :: s => p.openGroup? s
  | ')' :: s => p.leave?.map (·, s)
  | '|' :: s =>
    some ({ p with branches := Pattern.ofParts p.parts.reverse :: p.branches, parts := [] }, s)
  | '[' :: s => (readClass? p.flags s).map fun (set, s) => (p.push set, s)
  | '?' :: s => (p.repeatLast? 0 (some 1)).map (·, afterReluctant s)
  | '*' :: s => (p.repeatLast? 0 none).map (·, afterReluctant s)
  | '+' :: s => (p.repeatLast? 1 none).map (·, afterReluctant s)
  | '\x7b' :: s => if p.parts.isEmpty then none else p.readCount? s
  | '\\' :: s => (readEscape? p.flags s).map fun (part, s) => (p.push part, s)
  | '.' :: s => some (p.push p.flags.dot, s)
  | '^' :: s => some (p.push (.look p.flags.caret), s)
  | '$' :: s => some (p.push (.look p.flags.dollar), s)
  | c :: s => some (p.push (p.flags.literal c), s)

def run? : Nat → Progress → List Char → Option Progress
  | 0, p, s => if s = [] then some p else none
  | fuel + 1, p, s =>
    match p.flags.skip s with
    | [] => some p
    | s =>
      match p.step? s with
      | some (p, s) => run? fuel p s
      | none => none

end Progress

/-- The pattern that a text writes, if it is one and not too deep or too
large. -/
def Pattern.ofText? (text : String) : Option Pattern := do
  let chars := text.toList
  let p ← Progress.run? (chars.length + 1) {} chars
  if p.groups.isEmpty then
    let pattern := p.pattern
    if pattern.nesting ≤ nestingLimit ∧ pattern.compiledSize ≤ sizeLimit then pure pattern else none
  else none

end ImportChain.Regex
