import ProximalNewton.Decimal.Binary

/-!
Decimal digits of a binary value.

`Scientific.shortest` finds the fewest digits that read back to the same
binary64 number, and `Scientific.rounded` a fixed number of them. Both compare
the exact value with multiples of a power of ten in natural numbers.
-/

namespace ProximalNewton.Decimal

/-- The decimal number `coefficient · 10^exponent`. -/
structure Scientific where
  coefficient : Nat
  exponent : Int

/-! ## Multiples of a power of ten -/

/-- A grid of decimal numbers beside a grid of binary ones: `spacing` is to `unit`
as `10^k` to `2^q`. -/
structure Grids where
  spacing : Nat
  unit : Nat

/-- The multiples of `10^k` and of `2^q`, both as multiples of one number. -/
def Grids.of (k q : Int) : Grids where
  spacing := Nat.pow 10 k.toNat * Nat.pow 2 (-q).toNat
  unit := Nat.pow 2 q.toNat * Nat.pow 10 (-k).toNat

/-! ## The fewest digits -/

/-- The numbers that are nearest to one binary64 number, in quarters of the last
place of its mantissa. -/
structure Neighbourhood where
  low : Nat
  value : Nat
  high : Nat
  /-- The ends belong to it. -/
  closed : Bool
  /-- One quarter is `2^exponent`. -/
  exponent : Int

/-- The numbers that read back as a value. They reach half a place to both
sides, but only a quarter downwards from a power of two, and a number half way
reads back as the value whose mantissa is even. -/
def Magnitude.neighbourhood (value : Magnitude) : Neighbourhood where
  low := 4 * value.mantissa - if value.mantissa = Nat.pow 2 52 then 1 else 2
  value := 4 * value.mantissa
  high := 4 * value.mantissa + 2
  closed := value.mantissa % 2 == 0
  exponent := value.exponent - 2

namespace Neighbourhood

/-- The decimal number `coefficient · 10^k` reads back as the value. -/
def readsBack (near : Neighbourhood) (k : Int) (coefficient : Nat) : Bool :=
  let grids := Grids.of k near.exponent
  let point := coefficient * grids.spacing
  if near.closed then near.low * grids.unit ≤ point && point ≤ near.high * grids.unit
  else near.low * grids.unit < point && point < near.high * grids.unit

/-- The multiple of `10^k` that reads back as the value; the nearer one, and of
two equally near ones the greater, if both neighbours of the value do. -/
def onGrid? (near : Neighbourhood) (k : Int) : Option Nat :=
  let grids := Grids.of k near.exponent
  let exact := near.value * grids.unit
  let below := exact / grids.spacing
  let above := below + 1
  match near.readsBack k below, near.readsBack k above with
  | true, true =>
    if exact - below * grids.spacing < above * grids.spacing - exact then some below
    else some above
  | true, false => some below
  | false, true => some above
  | false, false => none

end Neighbourhood

namespace Scientific

/-- The decimal number with the fewest digits that reads back as a positive
value. Seventeen digits always do. -/
def shortest (value : Magnitude) : Scientific :=
  let near := value.neighbourhood
  let first := value.decimalExponent + 1
  let found := (List.range 18).findSome? fun (digits : Nat) =>
    let k : Int := first - digits
    (near.onGrid? k).map fun coefficient => Scientific.mk coefficient k
  found.getD ⟨0, 0⟩

/-! ## A fixed number of digits -/

/-- The integer nearest to a quotient; a quotient half way between two goes to
the even one. -/
def roundQuotient (dividend divisor : Nat) : Nat :=
  let quotient := dividend / divisor
  let twice := 2 * (dividend % divisor)
  if divisor < twice ∨ (twice = divisor ∧ quotient % 2 = 1) then quotient + 1 else quotient

/-- A positive value with `places` digits after the first one. -/
def rounded (places : Nat) (value : Magnitude) : Scientific :=
  let k := value.decimalExponent - places
  let grids := Grids.of k value.exponent
  let coefficient := roundQuotient (value.mantissa * grids.unit) grids.spacing
  if coefficient = Nat.pow 10 (places + 1) then ⟨Nat.pow 10 places, k + 1⟩ else ⟨coefficient, k⟩

end Scientific

end ProximalNewton.Decimal
