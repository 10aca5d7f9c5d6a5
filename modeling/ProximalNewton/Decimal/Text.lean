import ProximalNewton.Decimal.Scientific

/-!
Text of binary64 numbers.

Three forms are in use: `plain`, the fewest digits without an exponent;
`scientific`, the same digits with one; and `scientificTo`, a fixed number of
digits with an exponent. The sign of zero is written, an infinity is `inf` and a
value that is not a number is `NaN`.
-/

namespace ProximalNewton.Decimal

/-- Decimal digits of a natural number. -/
def digitsOf (n : Nat) : List Char :=
  Nat.toDigits 10 n

/-- So many zeros. -/
def zeros (count : Nat) : List Char :=
  List.replicate count '0'

/-- Digits of an integer, after a minus sign if it is negative. -/
def signedDigits (n : Int) : List Char :=
  if n < 0 then '-' :: digitsOf n.natAbs else digitsOf n.natAbs

/-! ## Layouts -/

/-- Every digit in its place, with a point only before a fraction. -/
def Scientific.plain (number : Scientific) : List Char :=
  let digits := digitsOf number.coefficient
  let fraction := (-number.exponent).toNat
  if fraction = 0 then digits ++ zeros number.exponent.toNat
  else if fraction < digits.length then
    digits.take (digits.length - fraction) ++ '.' :: digits.drop (digits.length - fraction)
  else ['0', '.'] ++ zeros (fraction - digits.length) ++ digits

/-- One digit, the others after a point if there are any, and the exponent of the
first digit. -/
def Scientific.withExponent (number : Scientific) : List Char :=
  let digits := digitsOf number.coefficient
  let rest := digits.drop 1
  digits.take 1 ++ (if rest.isEmpty then [] else '.' :: rest) ++
    'e' :: signedDigits (number.exponent + (digits.length - 1 : Nat))

/-! ## Numbers -/

/-- The text of a number whose magnitude is laid out by `layout`. -/
def write (layout : Magnitude → List Char) (x : Float) : String :=
  match Binary.ofFloat x with
  | .notANumber => "NaN"
  | .infinite negative => if negative then "-inf" else "inf"
  | .finite negative magnitude =>
    String.ofList ((if negative then ['-'] else []) ++ layout magnitude)

/-- The fewest digits that read back as a magnitude; a single zero for zero. -/
def fewest (value : Magnitude) : Scientific :=
  if value.mantissa = 0 then ⟨0, 0⟩ else .shortest value

/-- The fewest digits that read back, written without an exponent. -/
def plain : Float → String :=
  write fun value => (fewest value).plain

/-- The fewest digits that read back, written with an exponent. -/
def scientific : Float → String :=
  write fun value => (fewest value).withExponent

/-- The number rounded to `places` digits after the first, written with an
exponent. -/
def scientificTo (places : Nat) : Float → String :=
  write fun value =>
    if value.mantissa = 0 then '0' :: '.' :: zeros places ++ ['e', '0']
    else (Scientific.rounded places value).withExponent

end ProximalNewton.Decimal
