import ProximalNewton.Decimal.Text
import ProximalNewton.Fault

/-!
Wording of the failures.

Values inside a message are written by their binary64 number: bounds and weights
with the fewest digits and no exponent, residuals and Lipschitz constants with
the fewest digits and an exponent.
-/

namespace ProximalNewton

def Role.name : Role → String
  | .C => "C"
  | .D => "D"

def Argument.name : Argument → String
  | .x => "x"
  | .C => "C"
  | .D => "D"
  | .z => "z"
  | .y => "y"
  | .errZ => "err_z"
  | .sigma => "sigma"

def Setting.name : Setting → String
  | .maxIter => "max_iter"
  | .memoryDepth => "lbfgs.memory"
  | .curvatureTol => "lbfgs.curvature_tol"
  | .epsilon => "lipschitz.epsilon"
  | .delta => "lipschitz.delta"
  | .lMin => "lipschitz.l_min"
  | .tauMin => "line_search.tau_min"

/-- The range that a setting has to be in. -/
def Setting.requirement : Setting → String
  | .maxIter => "must be at least 1"
  | .memoryDepth => "must be at least 1"
  | .curvatureTol => "must be finite and non-negative"
  | .epsilon => "must be finite and positive"
  | .delta => "must be finite and positive"
  | .lMin => "must be finite and positive"
  | .tauMin => "must lie in (0, 1)"

def Parameter.name : Parameter → String
  | .numVars => "n"
  | .setting which => which.name
  | .tolerance => "eps"

/-- What is asked of a parameter. -/
def Parameter.requirement : Parameter → String
  | .numVars => "problem has no decision variables"
  | .setting which => which.requirement
  | .tolerance => "tolerance must be positive"

variable {F ε : Type} [MachineScalar F]

/-- A value with the fewest digits and no exponent. -/
def plainText (value : F) : String :=
  Decimal.plain (MachineScalar.widen value)

/-- A value with the fewest digits and an exponent. -/
def scientificText (value : F) : String :=
  Decimal.scientific (MachineScalar.widen value)

def InputFault.message : InputFault F → String
  | .weight index value =>
    let shown := plainText value
    s!"penalty weight sigma[{index}] = {shown} must be finite and strictly positive"
  | .inverted role index lower upper =>
    let low := plainText lower
    let high := plainText upper
    s!"set {role.name}: lower bound {low} exceeds upper bound {high} at index {index}"
  | .unordered role index => s!"set {role.name}: NaN bound at index {index}"

/-- The wording of a failure, with the problem's own errors worded by
`oracleMessage`. -/
def SolveError.message (oracleMessage : ε → String) : SolveError F ε → String
  | .iterationLimit iterations residual =>
    let shown := scientificText residual
    s!"maximum iterations exceeded after {iterations} iterations (residual {shown})"
  | .stepSize iteration updates lipschitz =>
    let shown := scientificText lipschitz
    "step-size adaptation did not satisfy the descent condition at iteration " ++
      s!"{iteration} after {updates} updates (L = {shown})"
  | .input fault => "degenerate projection: " ++ fault.message
  | .parameter which => s!"invalid parameter `{which.name}`: {which.requirement}"
  | .size which expected actual =>
    s!"dimension mismatch for {which.name}: expected {expected}, got {actual}"
  | .interrupted iterations => s!"solve interrupted after {iterations} iterations"
  | .oracle error => "oracle evaluation failed: " ++ oracleMessage error

end ProximalNewton
