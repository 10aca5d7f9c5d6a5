/-!
Binary64 numbers as exact values.

A finite binary64 number is a signed multiple of a power of two. `Binary.ofFloat`
reads it off the bits, and `Magnitude.decimalExponent` finds the place of its
first decimal digit in exact arithmetic.
-/

namespace ProximalNewton.Decimal

/-- The exact value `mantissa · 2^exponent`. -/
structure Magnitude where
  mantissa : Nat
  exponent : Int

/-- What the bits of a binary64 number say. -/
inductive Binary where
  | notANumber
  | infinite (negative : Bool)
  | finite (negative : Bool) (magnitude : Magnitude)

/-- The value of a binary64 number. The exponent field is biased by 1075 against
the integer mantissa, and the field zero has no implicit leading bit. -/
def Binary.ofFloat (x : Float) : Binary :=
  let bits := x.toBits.toNat
  let negative := bits / Nat.pow 2 63 == 1
  let field : Nat := bits / Nat.pow 2 52 % Nat.pow 2 11
  let fraction : Nat := bits % Nat.pow 2 52
  if field = 2047 then
    if fraction = 0 then .infinite negative else .notANumber
  else if field = 0 then .finite negative ⟨fraction, -1074⟩
  else .finite negative ⟨Nat.pow 2 52 + fraction, (field : Int) - 1075⟩

namespace Magnitude

/-- The value is `numerator / denominator`. -/
def numerator (value : Magnitude) : Nat :=
  value.mantissa * Nat.pow 2 value.exponent.toNat

/-- The value is `numerator / denominator`. -/
def denominator (value : Magnitude) : Nat :=
  Nat.pow 2 (-value.exponent).toNat

/-- The greatest `p` for which `10^p` does not exceed a positive value. -/
def decimalExponent (value : Magnitude) : Int :=
  let whole := value.numerator / value.denominator
  if 0 < whole then
    ((Nat.toDigits 10 whole).length : Int) - 1
  else
    let places := (Nat.toDigits 10 (value.denominator / value.numerator)).length
    if value.denominator ≤ value.numerator * Nat.pow 10 (places - 1) then -((places : Int) - 1)
    else -(places : Int)

end Magnitude

end ProximalNewton.Decimal
