/-
ImportChain.Json.Numeral — numbers as JSON text.

A numeral without fraction and exponent that fits 64 bits is a whole
number; every other numeral is a double, and so is `-0`. A double is read
by collecting digits into a 64-bit significand for as long as it fits and
scaling once by a power of ten.

A double is written with the fewest digits that read back: positional for
decimal exponents from -5 to 15, otherwise in scientific form with a sign
on a positive exponent.
-/
import ImportChain.Json.Basic
import ImportChain.Json.Shortest

namespace ImportChain.Json

/-! ## Digits -/

def digitValue (c : Char) : Nat := c.toNat - '0'.toNat

def natText (n : Nat) : List Char := Nat.toDigits 10 n

def intText (n : Int) : List Char :=
  if n < 0 then '-' :: natText n.natAbs else natText n.natAbs

/-! ## Writing doubles -/

/-- A decimal with a point: at least one digit on either side of it. -/
def Decimal.positional (d : Decimal) : List Char :=
  let digits := natText d.digits
  if 0 ≤ d.exponent then digits ++ List.replicate d.exponent.toNat '0' ++ ['.', '0']
  else
    let places := (-d.exponent).toNat
    if places < digits.length then
      digits.take (digits.length - places) ++ '.' :: digits.drop (digits.length - places)
    else '0' :: '.' :: List.replicate (places - digits.length) '0' ++ digits

/-- A decimal with one digit before the point and an exponent. -/
def Decimal.scientific (d : Decimal) : List Char :=
  let digits := natText d.digits
  let exponent := d.exponent + digits.length - 1
  let mantissa := match digits with
    | first :: second :: rest => first :: '.' :: second :: rest
    | short => short
  mantissa ++ 'e' :: (if exponent < 0 then intText exponent else '+' :: intText exponent)

def Decimal.text (d : Decimal) : List Char :=
  let exponent := d.exponent + (natText d.digits).length - 1
  if -5 ≤ exponent ∧ exponent < 16 then d.positional else d.scientific

/-- The text of the double with these bits; what is no number has the text of
`null`. -/
def floatText (bits : UInt64) : List Char :=
  let unsigned :=
    if bits.toNat % Nat.pow 2 63 = 0 then ['0', '.', '0']
    else match Dyadic.ofBits? bits with
      | some d => d.shortest.text
      | none => ['n', 'u', 'l', 'l']
  if bits.toNat / Nat.pow 2 63 = 1 then '-' :: unsigned else unsigned

/-! ## Reading -/

/-- A numeral by its parts: sign, whole digits, digits after the point, and
the exponent with its sign. -/
structure Numeral where
  negative : Bool
  whole : List Char
  fraction : Option (List Char)
  exponent : Option (Bool × List Char)
  deriving Repr, DecidableEq

/-- The digits at the start of `s`, and the rest. -/
def spanDigits (s : List Char) : List Char × List Char :=
  (s.takeWhile Char.isDigit, s.dropWhile Char.isDigit)

/-- The parts of a numeral: no leading zero, a digit on either side of a
point and in an exponent. -/
def Numeral.ofText? (s : List Char) : Option Numeral := do
  let (negative, s) := match s with
    | '-' :: s => (true, s)
    | s => (false, s)
  let (whole, s) := spanDigits s
  if whole = [] ∨ (whole.head? = some '0' ∧ 1 < whole.length) then none
  let (fraction, s) ← match s with
    | '.' :: s =>
      let (digits, s) := spanDigits s
      if digits = [] then none else pure (some digits, s)
    | s => pure (none, s)
  let (exponent, s) ← match s with
    | c :: s =>
      if c = 'e' ∨ c = 'E' then
        let (negative, s) := match s with
          | '+' :: s => (false, s)
          | '-' :: s => (true, s)
          | s => (false, s)
        let (digits, s) := spanDigits s
        if digits = [] then none else pure (some (negative, digits), s)
      else none
    | [] => pure (none, [])
  if s = [] then pure ⟨negative, whole, fraction, exponent⟩ else none

def digitsValue (digits : List Char) : Nat := digits.foldl (fun n c => n * 10 + digitValue c) 0

/-- The significand after reading digits onto it for as long as it stays
below `2 ^ 64`, and how many of them were read. -/
def collectDigits (significand : Nat) : List Char → Nat × Nat
  | [] => (significand, 0)
  | c :: digits =>
    let next := significand * 10 + digitValue c
    if next < Nat.pow 2 64 then
      let (significand, count) := collectDigits next digits
      (significand, count + 1)
    else (significand, 0)

def powerOfTen (n : Nat) : Float := Float.ofNat (Nat.pow 10 n)

/-- `f / 10 ^ n`, in steps of at most 308 places. -/
def scaleDown (f : Float) (n : Nat) : Float :=
  if n ≤ 308 then f / powerOfTen n
  else if f == 0 then f
  else scaleDown (f / powerOfTen 308) (n - 308)
termination_by n

/-- `significand * 10 ^ exponent` as a double, if it is not too large. -/
def scaled? (significand : Nat) (exponent : Int) : Option Float :=
  let f := significand.toUInt64.toFloat
  if exponent < 0 then some (scaleDown f (-exponent).toNat)
  else if exponent ≤ 308 then
    let f := f * powerOfTen exponent.toNat
    if f.isInf then none else some f
  else if f == 0 then some f else none

def Numeral.float? (n : Numeral) : Option Float := do
  let (significand, count) := collectDigits 0 n.whole
  let dropped := n.whole.length - count
  let (significand, places) := collectDigits significand (n.fraction.getD [])
  let shift : Int := (dropped : Int) - places
  let exponent := match n.exponent with
    | none => shift
    | some (negative, digits) =>
      if negative then shift - digitsValue digits else shift + digitsValue digits
  let f ← scaled? significand exponent
  pure (if n.negative then -f else f)

/-- The value of a numeral, if it is not too large for a double. -/
def Numeral.value? (n : Numeral) : Option Json :=
  let asFloat := n.float?.map fun f => Json.float f.toBits
  if n.fraction.isSome ∨ n.exponent.isSome then asFloat
  else
    let whole := digitsValue n.whole
    if n.negative then
      if 0 < whole ∧ whole ≤ Nat.pow 2 63 then some (.int (-(whole : Int))) else asFloat
    else if whole < Nat.pow 2 64 then some (.int whole) else asFloat

end ImportChain.Json
