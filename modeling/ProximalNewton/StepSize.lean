import ProximalNewton.Params
import ProximalNewton.Vec

/-!
Step sizes.

A `StepSize` holds an estimate `L` of the Lipschitz constant of the merit
gradient together with the proximal step `γ` and the search constant `σ` that
belong to it. The three are made together by `ofLipschitz` and change together
by `halved`. The tests of the method, which compare merit values with bounds
built from these numbers, are stated here as functions of `ψ(x)`, `⟨∇ψ(x), r⟩`
and `‖r‖²`.
-/

namespace ProximalNewton

variable {F : Type} [Scalar F] {n : Nat}

/-- An estimate of the Lipschitz constant with its proximal step and its search
constant. -/
structure StepSize (F : Type) where
  lipschitz : F
  gamma : F
  sigma : F

namespace StepSize

/-- `γ = 0.95 / L` and `σ = γ (1 - γL) / 2`. -/
def ofLipschitz (lipschitz : F) : StepSize F :=
  let gamma := 0.95 / lipschitz
  { lipschitz, gamma, sigma := gamma * (1 - gamma * lipschitz) * 0.5 }

/-- Twice the estimate, half the step and half the search constant. -/
def halved (step : StepSize F) : StepSize F where
  lipschitz := step.lipschitz * (1 + 1)
  gamma := step.gamma / (1 + 1)
  sigma := step.sigma / (1 + 1)

/-- The step is too long when the merit after it exceeds
`ψ - ⟨∇ψ, r⟩ + (L/2)‖r‖² + 10⁻⁶|ψ|`. -/
def descentLimit (step : StepSize F) (psi gradDotR normSqR : F) : F :=
  psi - gradDotR + 0.5 * step.lipschitz * normSqR + 1e-6 * Scalar.abs psi

/-- Forward-backward envelope `ψ - ⟨∇ψ, r⟩ + ‖r‖² / (2γ)`. -/
def envelope (step : StepSize F) (psi gradDotR normSqR : F) : F :=
  psi - gradDotR + 0.5 / step.gamma * normSqR

/-- The amount `σ‖r‖² / γ²` by which an accepted step lowers the envelope. -/
def requiredDecrease (step : StepSize F) (normSqR : F) : F :=
  step.sigma * normSqR / (step.gamma * step.gamma)

end StepSize

/-- Perturbation of a point for a finite difference, `hᵢ = max(|xᵢ| ε, δ)`. -/
def perturbation (params : EstimateParams F) (x : Vector F n) : Vector F n :=
  x.map fun component => maxNum (Scalar.abs component * params.epsilon) params.delta

/-- Difference quotient `‖∇ψ(x + h) - ∇ψ(x)‖ / ‖h‖` of a gradient. -/
def differenceQuotient (h gradAtShifted grad : Vector F n) : F :=
  norm (gradAtShifted - grad) / norm h

end ProximalNewton
