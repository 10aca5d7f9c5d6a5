import ProximalNewton.Problem
import ProximalNewton.Vec

/-!
The merit function of a penalised problem.

With weights `Σ` and multipliers `y`, the merit of a point is

  `ψ(x) = f(x) + ½ dist²_Σ(g(x) + Σ⁻¹y, D)`.

The first part states its ingredients: slack, multiplier estimate, penalty and
gradient. The second part evaluates them for one solve. Each evaluation hands on
a `Ledger`, which holds the constraint value and the multiplier estimate that
were computed last and counts evaluations; no evaluation reads it.
-/

namespace ProximalNewton

variable {F ε : Type} [Scalar F] {n m : Nat}

/-! ## Ingredients -/

/-- Slack `ẑ`: the point of `D` nearest to `g(x) + Σ⁻¹y`. -/
def slack (D : Box F m) (g shift : Vector F m) : Vector F m :=
  D.project (g + shift)

/-- Multiplier estimate `ŷ = Σ(g(x) - ẑ) + y`. -/
def multiplierEstimate (z g y sigma : Vector F m) : Vector F m :=
  sigma.zipWith (· * ·) (g - z) + y

/-- Weighted squared distance `Σᵢ σᵢ (g(x)ᵢ + σᵢ⁻¹yᵢ - ẑᵢ)²`. -/
def distanceSq (g shift z sigma : Vector F m) : F :=
  (sigma.zipWith (fun weight d => weight * d * d) (g + shift - z)).foldl (· + ·) 0

/-- Merit value, the objective and half the weighted squared distance. -/
def meritValue (oracles : Oracles F ε n m) (x : Vector F n) (g shift z sigma : Vector F m) :
    Except ε F := do
  let f ← oracles.f x
  return f + 0.5 * distanceSq g shift z sigma

/-- A merit gradient with the part that the constraints contribute to it. -/
structure MeritGradient (F : Type) (n : Nat) where
  adjoint : Vector F n
  total : Vector F n

/-- Merit gradient `∇f(x) + ∇g(x) ŷ`. -/
def meritGradient (oracles : Oracles F ε n m) (x : Vector F n) (yHat : Vector F m) :
    Except ε (MeritGradient F n) := do
  let gradF ← oracles.gradF x
  let adjoint ← oracles.gradG x yHat
  return { adjoint, total := gradF + adjoint }

/-- Residual of the proximal gradient map, `γ⁻¹r + ∇ψ(x̂) - ∇ψ(x)`. -/
def residualVector (gamma : F) (r gradHat grad : Vector F n) : Vector F n :=
  gradHat - grad + (1 / gamma) * r

/-- Largest component of the residual of the proximal gradient map. -/
def residual (gamma : F) (r gradHat grad : Vector F n) : F :=
  maxNorm (residualVector gamma r gradHat grad)

/-! ## Evaluation -/

/-- What stays fixed while the merit function of one solve is evaluated. -/
structure Merit (F ε : Type) (n m : Nat) where
  oracles : Oracles F ε n m
  D : Box F m
  sigma : Vector F m
  y : Vector F m

/-- The constraint value and multiplier estimate computed last, and how often
the merit value and the merit gradient have been evaluated. -/
structure Ledger (F : Type) (m : Nat) where
  constraint : Vector F m
  multipliers : Vector F m
  fEvals : Nat
  gradEvals : Nat

/-- The ledger before the first evaluation. -/
def Ledger.blank : Ledger F m where
  constraint := Vector.replicate m 0
  multipliers := Vector.replicate m 0
  fEvals := 0
  gradEvals := 0

/-- The merit of a point. -/
structure Value (F : Type) (m : Nat) where
  z : Vector F m
  psi : F

/-- The merit gradient at a point. -/
structure Gradient (F : Type) (n m : Nat) where
  z : Vector F m
  gradPsi : Vector F n

/-- The merit of a point and its gradient there. -/
structure Evaluation (F : Type) (n m : Nat) extends Value F m, Gradient F n m

namespace Merit

/-- The shift `Σ⁻¹y` of the constraint value. -/
def shift (merit : Merit F ε n m) : Vector F m :=
  merit.y.zipWith (· / ·) merit.sigma

/-- Slack of a constraint value. -/
def slackOf (merit : Merit F ε n m) (g : Vector F m) : Vector F m :=
  slack merit.D g merit.shift

/-- Multiplier estimate of a constraint value. -/
def multipliersOf (merit : Merit F ε n m) (g : Vector F m) : Vector F m :=
  multiplierEstimate (merit.slackOf g) g merit.y merit.sigma

/-- Merit value at a point whose constraint value is known. -/
def psi (merit : Merit F ε n m) (x : Vector F n) (g : Vector F m) : Except ε F :=
  meritValue merit.oracles x g merit.shift (merit.slackOf g) merit.sigma

/-- Evaluates the constraint map, then the objective. -/
def value (merit : Merit F ε n m) (x : Vector F n) (ledger : Ledger F m) :
    Except ε (Value F m × Ledger F m) := do
  let g ← merit.oracles.g x
  let psi ← merit.psi x g
  return ({ z := merit.slackOf g, psi },
    { ledger with constraint := g, fEvals := ledger.fEvals + 1 })

/-- Evaluates the constraint map, the gradient of the objective and the adjoint
of the constraint map, in this order. -/
def gradient (merit : Merit F ε n m) (x : Vector F n) (ledger : Ledger F m) :
    Except ε (Gradient F n m × Ledger F m) := do
  let g ← merit.oracles.g x
  let grad ← meritGradient merit.oracles x (merit.multipliersOf g)
  return ({ z := merit.slackOf g, gradPsi := grad.total },
    { ledger with
      constraint := g
      multipliers := merit.multipliersOf g
      gradEvals := ledger.gradEvals + 1 })

/-- Evaluates the gradient and then the objective, with the constraint map
evaluated once. -/
def evaluate (merit : Merit F ε n m) (x : Vector F n) (ledger : Ledger F m) :
    Except ε (Evaluation F n m × Ledger F m) := do
  let (gradient, ledger) ← merit.gradient x ledger
  let psi ← merit.psi x ledger.constraint
  return ({ z := gradient.z, psi, gradPsi := gradient.gradPsi },
    { ledger with fEvals := ledger.fEvals + 1 })

end Merit

end ProximalNewton
