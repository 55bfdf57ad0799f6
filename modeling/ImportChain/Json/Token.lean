/-
ImportChain.Json.Token — JSON text cut into tokens.

`tokens?` cuts a text into brackets, commas, colons, strings, words and
numerals, and refuses what is written wrongly. A string or a numeral that
is written well may still stand for nothing: a string with a single
surrogate unit, a numeral that is too large for a double. Such a token is
kept without a value, because a part of a text that nobody reads may hold
one.
-/
import ImportChain.Json.Numeral

namespace ImportChain.Json

/-- A piece of JSON text. -/
inductive Token where
  | openArr
  | closeArr
  | openObj
  | closeObj
  | comma
  | colon
  /-- A string, if it stands for a text. -/
  | str (value : Option String)
  /-- One of the words `null`, `true` and `false`, or a numeral, if it stands
  for a number. -/
  | atom (value : Option Json)
  deriving DecidableEq

/-! ## Strings -/

def hexValue? (c : Char) : Option Nat :=
  if c.isDigit then some (digitValue c)
  else if 'a' ≤ c ∧ c ≤ 'f' then some (c.toNat - 'a'.toNat + 10)
  else if 'A' ≤ c ∧ c ≤ 'F' then some (c.toNat - 'A'.toNat + 10)
  else none

/-- The code unit written by four hexadecimal digits. -/
def unit? (a b c d : Char) : Option Nat := do
  pure ((((← hexValue? a) * 16 + (← hexValue? b)) * 16 + (← hexValue? c)) * 16 + (← hexValue? d))

/-- What an escape of one letter stands for. -/
def unescapeLetter? (c : Char) : Option Char :=
  if c = '"' ∨ c = '\\' ∨ c = '/' then some c
  else if c = 'b' then some '\x08'
  else if c = 'f' then some '\x0c'
  else if c = 'n' then some '\n'
  else if c = 'r' then some '\r'
  else if c = 't' then some '\t'
  else none

/-- The code points that the inside of a string writes. An escape of four
digits writes a unit of UTF-16, which may be a surrogate. -/
def codes? : List Char → Option (List Nat)
  | [] => some []
  | '\\' :: 'u' :: a :: b :: c :: d :: s => do
    let unit ← unit? a b c d
    pure (unit :: (← codes? s))
  | '\\' :: c :: s => do
    let c ← unescapeLetter? c
    pure (c.toNat :: (← codes? s))
  | c :: s => if c = '\\' ∨ c.toNat < 32 then none else (codes? s).map (c.toNat :: ·)

def isHighSurrogate (n : Nat) : Bool := 0xD800 ≤ n && n < 0xDC00

def isLowSurrogate (n : Nat) : Bool := 0xDC00 ≤ n && n < 0xE000

/-- The characters of code points. A pair of surrogates makes one character;
a single one makes none. -/
def charsOfCodes? : List Nat → Option (List Char)
  | [] => some []
  | [n] => if isHighSurrogate n ∨ isLowSurrogate n then none else some [Char.ofNat n]
  | n :: m :: s =>
    if isHighSurrogate n then
      if isLowSurrogate m then
        (charsOfCodes? s).map (Char.ofNat (0x10000 + (n - 0xD800) * 0x400 + (m - 0xDC00)) :: ·)
      else none
    else if isLowSurrogate n then none
    else (charsOfCodes? (m :: s)).map (Char.ofNat n :: ·)

/-- The inside of a string up to its closing quote, and the rest. -/
def spanString : List Char → Option (List Char × List Char)
  | [] => none
  | '"' :: s => some ([], s)
  | '\\' :: c :: s => (spanString s).map fun (inside, rest) => ('\\' :: c :: inside, rest)
  | c :: s => (spanString s).map fun (inside, rest) => (c :: inside, rest)

theorem length_of_spanString {s inside rest : List Char} (h : spanString s = some (inside, rest)) :
    rest.length < s.length := by
  fun_induction spanString s generalizing inside with
  | case1 => simp at h
  | case2 s => simp_all
  | case3 c s ih =>
    simp only [Option.map_eq_some_iff, Prod.mk.injEq, Prod.exists] at h
    obtain ⟨i, r, h', _, rfl⟩ := h
    have := ih h'
    simp only [List.length_cons]
    omega
  | case4 c s _ _ ih =>
    simp only [Option.map_eq_some_iff, Prod.mk.injEq, Prod.exists] at h
    obtain ⟨i, r, h', _, rfl⟩ := h
    have := ih h'
    simp only [List.length_cons]
    omega

/-! ## Cutting -/

def isBlank (c : Char) : Bool := c = ' ' ∨ c = '\n' ∨ c = '\t' ∨ c = '\r'

/-- What a word or a numeral may be written with. -/
def isAtomChar (c : Char) : Bool := c.isAlphanum ∨ c = '-' ∨ c = '+' ∨ c = '.'

/-- The token of a word or a numeral. -/
def atom? (s : List Char) : Option Token :=
  if s = ['n', 'u', 'l', 'l'] then some (.atom (some .null))
  else if s = ['t', 'r', 'u', 'e'] then some (.atom (some (.bool true)))
  else if s = ['f', 'a', 'l', 's', 'e'] then some (.atom (some (.bool false)))
  else (Numeral.ofText? s).map fun numeral => .atom numeral.value?

/-- The token of the inside of a string. -/
def string? (inside : List Char) : Option Token :=
  (codes? inside).map fun codes => .str ((charsOfCodes? codes).map String.ofList)

/-- The token that a single character makes. -/
def punctuation? (c : Char) : Option Token :=
  if c = '[' then some .openArr
  else if c = ']' then some .closeArr
  else if c = '{' then some .openObj
  else if c = '}' then some .closeObj
  else if c = ',' then some .comma
  else if c = ':' then some .colon
  else none

/-- The tokens of a text. -/
def tokens? (s : List Char) : Option (List Token) :=
  match s with
  | [] => some []
  | c :: s =>
    if isBlank c then tokens? s
    else match punctuation? c with
    | some token => (tokens? s).map (token :: ·)
    | none =>
      if c = '"' then
        match h : spanString s with
        | none => none
        | some (inside, rest) =>
          have : rest.length < s.length := length_of_spanString h
          match string? inside with
          | none => none
          | some token => (tokens? rest).map (token :: ·)
      else if isAtomChar c then
        have : (s.dropWhile isAtomChar).length ≤ s.length := (List.dropWhile_sublist _).length_le
        match atom? (c :: s.takeWhile isAtomChar) with
        | none => none
        | some token => (tokens? (s.dropWhile isAtomChar)).map (token :: ·)
      else none
termination_by s.length

end ImportChain.Json
