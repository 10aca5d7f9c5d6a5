import ProximalNewton.Scalar

/-!
Failures of a solve, as causes.

An `InputFault` is a defect of the sets or of the penalty weights; `SolveError`
joins these with parameters out of range, sizes that disagree and the failures
of a running solve. The values carried are those of the scalar type; their
wording is in `ProximalNewton.Message`.
-/

namespace ProximalNewton

/-- The two sets of a problem: `x ∈ C` for the variables, `g(x) ∈ D` for the
constraint map. -/
inductive Role where
  | C
  | D
  deriving DecidableEq

/-- A defect of the sets or of the penalty weights. -/
inductive InputFault (F : Type) where
  /-- A penalty weight is not finite and positive. -/
  | weight (index : Nat) (value : F)
  /-- A lower bound lies above the upper bound of the same component. -/
  | inverted (role : Role) (index : Nat) (lower upper : F)
  /-- A bound is not a number. -/
  | unordered (role : Role) (index : Nat)

/-- The defect with its values in binary64. -/
def InputFault.widened {F : Type} [MachineScalar F] : InputFault F → InputFault Float
  | .weight index value => .weight index (MachineScalar.widen value)
  | .inverted role index lower upper =>
    .inverted role index (MachineScalar.widen lower) (MachineScalar.widen upper)
  | .unordered role index => .unordered role index

/-- The arguments of a solve that have a size to agree with the problem. -/
inductive Argument where
  | x
  | C
  | D
  | z
  | y
  | errZ
  | sigma
  deriving DecidableEq

/-- The adjustable settings of the method that have a range. -/
inductive Setting where
  | maxIter
  | memoryDepth
  | curvatureTol
  | epsilon
  | delta
  | lMin
  | tauMin
  deriving DecidableEq

/-- The arguments of a solve that have a range of their own. -/
inductive Parameter where
  | numVars
  | setting (which : Setting)
  | tolerance
  deriving DecidableEq

/-- How a solve fails. Errors of the problem's own functions have type `ε` and
are passed on unchanged. -/
inductive SolveError (F ε : Type) where
  /-- The last permitted iteration did not meet the tolerance. -/
  | iterationLimit (iterations : Nat) (residual : F)
  /-- The step size could not be made to satisfy the descent condition. -/
  | stepSize (iteration updates : Nat) (lipschitz : F)
  /-- A set or a weight is defective. -/
  | input (fault : InputFault F)
  /-- A parameter is out of range. -/
  | parameter (which : Parameter)
  /-- An argument has the wrong size. -/
  | size (which : Argument) (expected actual : Nat)
  /-- The observer asked to stop. -/
  | interrupted (iterations : Nat)
  /-- A function of the problem failed. -/
  | oracle (error : ε)

/-- The iteration itself ended the solve, not its arguments or the problem's
functions. -/
def SolveError.isNonConvergence {F ε : Type} : SolveError F ε → Bool
  | .iterationLimit .. => true
  | .stepSize .. => true
  | .interrupted _ => true
  | .input _ => false
  | .parameter _ => false
  | .size .. => false
  | .oracle _ => false

end ProximalNewton
