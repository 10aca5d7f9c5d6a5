/-!
Scalars: the numbers the method computes with.

`Scalar F` collects the operations that the algorithm uses and the one law it
rests on, that halving a unit step often enough brings it below any positive
bound. Every algorithm of the library is written once, over an arbitrary
`Scalar`, in a fixed order of operations, so that it can be run in binary64 and
binary32 and read over exact numbers.

`MachineScalar F` adds what only a machine format has: an infinite value, and a
binary64 value of the same size, which is what texts are written from.
-/

namespace ProximalNewton

/-- Numbers with the operations of the method. Nothing is assumed of the
operations but `halving_lt`; in particular some values may be unordered. -/
class Scalar (F : Type) extends Zero F, One F, Add F, Sub F, Mul F, Div F, Neg F,
    LE F, LT F, OfScientific F where
  decLE : DecidableLE F
  decLT : DecidableLT F
  /-- Magnitude. -/
  abs : F → F
  /-- Square root. -/
  sqrt : F → F
  /-- The value is not a number: it is unordered with every value. -/
  isNaN : F → Bool
  /-- The value is neither infinite nor unordered. -/
  isFinite : F → Bool
  /-- How often a unit step may be halved before it can be below a bound. -/
  halvings : F → Nat
  /-- Halving a unit step once more than `halvings t` times brings it below `t`. -/
  halving_lt : ∀ t : F, 0 < t → Nat.repeat (fun s => s * 0.5) (halvings t + 1) 1 < t

instance Scalar.decidableLE {F : Type} [Scalar F] : DecidableLE F := Scalar.decLE

instance Scalar.decidableLT {F : Type} [Scalar F] : DecidableLT F := Scalar.decLT

/-- A scalar in a machine format. -/
class MachineScalar (F : Type) extends Scalar F where
  /-- The value above every ordered value. -/
  infinity : F
  /-- The binary64 number of the same value. -/
  widen : F → Float

/-! ## Maximum and minimum -/

section Extremes

variable {F : Type} [Scalar F]

/-- The larger of two values. An unordered operand gives way to the other one,
and of two equal values the first is taken. -/
def maxNum (a b : F) : F :=
  if Scalar.isNaN a then b
  else if Scalar.isNaN b then a
  else if a < b then b else a

/-- The smaller of two values. An unordered operand gives way to the other one,
and of two equal values the first is taken. -/
def minNum (a b : F) : F :=
  if Scalar.isNaN a then b
  else if Scalar.isNaN b then a
  else if b < a then b else a

/-- The value is ordered, below zero and without bound. -/
def isNegInfinite (a : F) : Bool :=
  !Scalar.isNaN a && !Scalar.isFinite a && a < 0

/-- The value is ordered, above zero and without bound. -/
def isPosInfinite (a : F) : Bool :=
  !Scalar.isNaN a && !Scalar.isFinite a && 0 < a

/-- The value is above zero and finite. -/
def IsPositive (a : F) : Prop :=
  0 < a ∧ Scalar.isFinite a = true

instance IsPositive.decidable (a : F) : Decidable (IsPositive a) :=
  inferInstanceAs (Decidable (_ ∧ _))

end Extremes

/-! ## Machine formats -/

section Binary64

set_option maxRecDepth 10000

/-- The smallest positive binary64 number is `2⁻¹⁰⁷⁴`, and half of it rounds to
zero. -/
theorem halving_binary64 : Nat.repeat (fun s : Float => s * 0.5) (1074 + 1) 1 = 0 := by
  decide +kernel

instance binary64 : MachineScalar Float where
  zero := 0
  one := 1
  decLE := inferInstance
  decLT := inferInstance
  abs := Float.abs
  sqrt := Float.sqrt
  isNaN := Float.isNaN
  isFinite := Float.isFinite
  halvings _ := 1074
  halving_lt t positive := by
    have vanishes := halving_binary64
    exact vanishes ▸ positive
  infinity := 1.0 / 0.0
  widen x := x

end Binary64

section Binary32

set_option maxRecDepth 10000

/-- The smallest positive binary32 number is `2⁻¹⁴⁹`, and half of it rounds to
zero. -/
theorem halving_binary32 : Nat.repeat (fun s : Float32 => s * 0.5) (149 + 1) 1 = 0 := by
  decide +kernel

instance binary32 : MachineScalar Float32 where
  zero := 0
  one := 1
  decLE := inferInstance
  decLT := inferInstance
  abs := Float32.abs
  sqrt := Float32.sqrt
  isNaN := Float32.isNaN
  isFinite := Float32.isFinite
  halvings _ := 149
  halving_lt t positive := by
    have vanishes := halving_binary32
    exact vanishes ▸ positive
  infinity := 1.0 / 0.0
  widen := Float32.toFloat

end Binary32

end ProximalNewton
