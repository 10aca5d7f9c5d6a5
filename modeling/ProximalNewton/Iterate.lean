import ProximalNewton.Box
import ProximalNewton.StepSize

/-!
Iterates: a point with the proximal gradient step taken from it.

`Iterate.ofPoint` computes everything that the method knows about a point from the
point, its merit and gradient, and the step size `γ`. An iterate for a new step
size keeps the point and is computed again from it.
-/

namespace ProximalNewton

/-- A point `x` with its merit, its merit gradient and its proximal step. -/
structure Iterate (F : Type) (n : Nat) where
  x : Vector F n
  gradPsi : Vector F n
  psi : F
  /-- The projected gradient step `x̂` from `x`. -/
  xHat : Vector F n
  /-- The step `r = x - x̂`. -/
  r : Vector F n
  /-- `⟨∇ψ(x), r⟩`. -/
  gradDotR : F
  /-- `‖r‖²`. -/
  normSqR : F

namespace Iterate

variable {F : Type} [Scalar F] {n : Nat}

/-- The iterate at a point, with the projection of `x - γ∇ψ(x)` on `C`. -/
def ofPoint (C : Box F n) (gamma : F) (x gradPsi : Vector F n) (psi : F) : Iterate F n :=
  let xHat := C.project (x - gamma * gradPsi)
  let r := x - xHat
  { x, gradPsi, psi, xHat, r, gradDotR := dot gradPsi r, normSqR := normSq r }

/-- The iterate at the same point for another step size. -/
def withGamma (iterate : Iterate F n) (C : Box F n) (gamma : F) : Iterate F n :=
  .ofPoint C gamma iterate.x iterate.gradPsi iterate.psi

/-- Forward-backward envelope at the point. -/
def envelope (iterate : Iterate F n) (step : StepSize F) : F :=
  step.envelope iterate.psi iterate.gradDotR iterate.normSqR

/-- What the merit after the proximal step must not exceed. -/
def descentLimit (iterate : Iterate F n) (step : StepSize F) : F :=
  step.descentLimit iterate.psi iterate.gradDotR iterate.normSqR

end Iterate

end ProximalNewton
