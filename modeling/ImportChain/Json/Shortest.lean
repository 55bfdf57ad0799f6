/-
ImportChain.Json.Shortest — the fewest decimal digits that read back as a
given double.

A positive double is `m * 2 ^ q`; the reals that round to it form an
interval around it, whose ends belong to it when `m` is even. On the
grid of the multiples of `10 ^ k` only the two neighbours of the value can
be its nearest points, so the coarsest grid with a neighbour inside the
interval gives the digits. Everything is exact arithmetic on `Nat`.
-/

namespace ImportChain.Json

/-- A positive double: `mantissa * 2 ^ exponent`. -/
structure Dyadic where
  mantissa : Nat
  exponent : Int
  /-- The next smaller double is only half as far away as the next larger. -/
  closeBelow : Bool
  deriving Repr, DecidableEq

/-- A decimal: `digits * 10 ^ exponent`. -/
structure Decimal where
  digits : Nat
  exponent : Int
  deriving Repr, DecidableEq

/-- The double with these bits, without its sign; nothing for zero,
infinities and what is not a number. -/
def Dyadic.ofBits? (bits : UInt64) : Option Dyadic :=
  let field : Nat := (bits.toNat / Nat.pow 2 52) % Nat.pow 2 11
  let fraction : Nat := bits.toNat % Nat.pow 2 52
  if field = 2047 then none
  else if field = 0 then
    if fraction = 0 then none else some ⟨fraction, -1074, false⟩
  else some ⟨Nat.pow 2 52 + fraction, (field : Int) - 1075, fraction = 0 && field > 1⟩

/-- A quarter of the last binary place over `10 ^ k`, as numerator and
denominator. -/
def Dyadic.quarterUnit (d : Dyadic) (k : Int) : Nat × Nat :=
  let e := d.exponent - 2
  (Nat.pow 2 e.toNat * Nat.pow 10 (-k).toNat, Nat.pow 2 (-e).toNat * Nat.pow 10 k.toNat)

/-- The multiple of `10 ^ k` that reads back as `d` and is nearest to it; of
two equally near the even one. -/
def Dyadic.onGrid? (d : Dyadic) (k : Int) : Option Nat :=
  let (num, den) := d.quarterUnit k
  let value := 4 * d.mantissa * num
  let low := (4 * d.mantissa - (if d.closeBelow then 1 else 2)) * num
  let high := (4 * d.mantissa + 2) * num
  let ends := d.mantissa % 2 = 0
  let below := value / den
  let belowHits := low < below * den ∨ (ends ∧ low = below * den)
  let aboveHits := (below + 1) * den < high ∨ (ends ∧ (below + 1) * den = high)
  if belowHits then
    if aboveHits then
      let down := value - below * den
      let up := (below + 1) * den - value
      if down < up ∨ (down = up ∧ below % 2 = 0) then some below else some (below + 1)
    else some below
  else if aboveHits then some (below + 1) else none

/-- A grid too coarse for `d` or just coarse enough. -/
def Dyadic.coarsest (d : Dyadic) : Int :=
  ((Nat.log2 d.mantissa : Int) + 1 + d.exponent) * 30103 / 100000 + 1

/-- The decimal of fewest digits that reads back as `d`. -/
def Dyadic.shortest (d : Dyadic) : Decimal :=
  let grids := (List.range 24).map fun (i : Nat) => d.coarsest - i
  (grids.findSome? fun k => (d.onGrid? k).map (⟨·, k⟩)).getD ⟨0, 0⟩

end ImportChain.Json
