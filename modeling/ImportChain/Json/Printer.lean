/-
ImportChain.Json.Printer — JSON values as text.

`canonicalChars` writes the compact form with the fields of every object in
key order, so that values that differ in field order alone have one text;
the fields are first written and then put in order. `prettyChars` writes
one item a line, indented by two blanks, as for a reader.
-/
import ImportChain.Json.Numeral

namespace ImportChain.Json

/-! ## Strings -/

def hexDigit (n : Nat) : Char := if n < 10 then Char.ofNat (48 + n) else Char.ofNat (87 + n)

/-- How a character stands inside a string: quotes, backslashes and control
characters are escaped, all else stands for itself. -/
def escaped (c : Char) : List Char :=
  if c = '"' then ['\\', '"']
  else if c = '\\' then ['\\', '\\']
  else if c = '\n' then ['\\', 'n']
  else if c = '\r' then ['\\', 'r']
  else if c = '\t' then ['\\', 't']
  else if c = '\x08' then ['\\', 'b']
  else if c = '\x0c' then ['\\', 'f']
  else if c.toNat < 32 then
    ['\\', 'u', '0', '0', hexDigit (c.toNat / 16), hexDigit (c.toNat % 16)]
  else [c]

/-- A string between quotes. -/
def quoted (s : List Char) : List Char := '"' :: s.flatMap escaped ++ ['"']

/-! ## Compact form -/

def fieldText (key : String) (value : List Char) : List Char :=
  quoted key.toList ++ ':' :: value

mutual

/-- The canonical text of a value. -/
def canonicalChars : Json → List Char
  | .null => ['n', 'u', 'l', 'l']
  | .bool true => ['t', 'r', 'u', 'e']
  | .bool false => ['f', 'a', 'l', 's', 'e']
  | .int n => intText n
  | .float bits => floatText bits
  | .str s => quoted s.toList
  | .arr items => '[' :: [','].intercalate (canonicalItems items) ++ [']']
  | .obj fields =>
    let written := KeyMap.ofList (canonicalFields fields)
    '{' :: [','].intercalate (written.map fun (key, value) => fieldText key value) ++ ['}']

def canonicalItems : List Json → List (List Char)
  | [] => []
  | item :: rest => canonicalChars item :: canonicalItems rest

def canonicalFields : List (String × Json) → List (String × List Char)
  | [] => []
  | (key, value) :: rest => (key, canonicalChars value) :: canonicalFields rest

end

def canonical (value : Json) : String := String.ofList (canonicalChars value)

/-! ## Indented form -/

/-- A line break and the indentation of a depth. -/
def lineBreak (depth : Nat) : List Char := '\n' :: List.replicate (2 * depth) ' '

/-- Written entries one a line between brackets; none leave the brackets
together. -/
def bracketed (depth : Nat) (left right : Char) (entries : List (List Char)) : List Char :=
  if entries.isEmpty then [left, right]
  else
    let lines := entries.map (lineBreak (depth + 1) ++ ·)
    left :: [','].intercalate lines ++ lineBreak depth ++ [right]

mutual

/-- The indented text of a value that stands at some depth. -/
def prettyChars (depth : Nat) : Json → List Char
  | .arr items => bracketed depth '[' ']' (prettyItems (depth + 1) items)
  | .obj fields =>
    let written := KeyMap.ofList (prettyFields (depth + 1) fields)
    bracketed depth '{' '}' (written.map fun (key, value) => fieldText key (' ' :: value))
  | value => canonicalChars value

def prettyItems (depth : Nat) : List Json → List (List Char)
  | [] => []
  | item :: rest => prettyChars depth item :: prettyItems depth rest

def prettyFields (depth : Nat) : List (String × Json) → List (String × List Char)
  | [] => []
  | (key, value) :: rest => (key, prettyChars depth value) :: prettyFields depth rest

end

def pretty (value : Json) : String := String.ofList (prettyChars 0 value)

end ImportChain.Json
