import ProximalNewton.CurvatureSlots
import ProximalNewton.Job
import ProximalNewton.MeritBuffers
import ProximalNewton.StepSize

/-!
The working memory of a solve.

An `Arena` consists of all the arrays that a solve works in, allocated once. The current iterate
and the candidate of the search have a set of arrays each, and change places when a search has
ended; the other arrays are written over again and again. What was in an array before stays
there until it is written over.

What a solve does with these arrays alone, without a function of the problem, is an operation of
the arena. Every access that it makes is checked.
-/

namespace ProximalNewton

variable {E F ε τ : Type}

/-! ## Points -/

namespace Checked

variable [Scalar F]

/-- The point of step `τ` between the proximal and the quasi-Newton step, written over `out`. -/
def between (tau : F) (out x r direction : Array F) : Checked E (Array F) :=
  rewrite out fun i _ =>
    return (← read x i) - (1 - tau) * (← read r i) - tau * (← read direction i)

/-- The perturbation of a point, written over `h`. -/
def perturbation (params : EstimateParams F) (x h : Array F) : Checked E (Array F) := do
  agree x.size h.size
  rewrite h fun i _ =>
    return maxNum (Scalar.abs (← read x i) * params.epsilon) params.delta

end Checked

/-! ## Arrays of an iterate -/

/-- The arrays and numbers that are kept of one point. -/
structure IterateBuffers (F : Type) where
  x : Array F
  xHat : Array F
  r : Array F
  z : Array F
  gradPsi : Array F
  psi : F
  gradDotR : F
  normSqR : F

namespace IterateBuffers

variable [Scalar F]

def allocate (n m : Nat) : IterateBuffers F where
  x := Array.replicate n 0
  xHat := Array.replicate n 0
  r := Array.replicate n 0
  z := Array.replicate m 0
  gradPsi := Array.replicate n 0
  psi := 0
  gradDotR := 0
  normSqR := 0

variable (iterate : IterateBuffers F)

/-- Merit, slack and merit gradient at the point. -/
def evaluate (merit : ArrayMerit F ε τ) (buffers : MeritBuffers F τ) :
    Checked (SolveError F ε) (IterateBuffers F × MeritBuffers F τ) := do
  let (psi, z, gradPsi, buffers) ←
    merit.evaluate iterate.x iterate.z iterate.gradPsi buffers
  return ({ iterate with psi, z, gradPsi }, buffers)

/-- The projected gradient step from the point, with its products. -/
def gradientStep (C : Bounds F) (gamma : F) : Checked E (IterateBuffers F) := do
  let xHat ← Checked.step iterate.xHat iterate.x gamma iterate.gradPsi
  let xHat ← Checked.project C xHat
  let r ← Checked.difference iterate.r iterate.x xHat
  let gradDotR ← Checked.dot iterate.gradPsi r
  return { iterate with xHat, r, gradDotR, normSqR := Checked.normSq r }

/-- Forward-backward envelope at the point. -/
def envelope (step : StepSize F) : F :=
  step.envelope iterate.psi iterate.gradDotR iterate.normSqR

/-- What the merit after the proximal step must not exceed. -/
def descentLimit (step : StepSize F) : F :=
  step.descentLimit iterate.psi iterate.gradDotR iterate.normSqR

end IterateBuffers

/-! ## The arena -/

/-- The arrays that a solve works in, those of the caller included. -/
structure Arena (F τ : Type) where
  current : IterateBuffers F
  candidate : IterateBuffers F
  /-- Slack at the projected point. -/
  zHat : Array F
  /-- Merit gradient at the projected point. -/
  gradHat : Array F
  /-- Residual vector of the proximal gradient map. -/
  fixedPoint : Array F
  direction : Array F
  /-- Change of the point. -/
  s : Array F
  /-- Change of the residual. -/
  y : Array F
  curvature : CurvatureSlots F
  merit : MeritBuffers F τ
  buffers : Buffers F

namespace Arena

variable [Scalar F] (arena : Arena F τ)

/-- The projected gradient step from the current point. -/
def stepCurrent (C : Bounds F) (gamma : F) : Checked E (Arena F τ) := do
  let current ← arena.current.gradientStep C gamma
  return { arena with current }

/-- The projected gradient step from the candidate. -/
def stepCandidate (C : Bounds F) (gamma : F) : Checked E (Arena F τ) := do
  let candidate ← arena.candidate.gradientStep C gamma
  return { arena with candidate }

/-- The residual of the proximal gradient map. -/
def measure (gamma : F) : Checked E (F × Arena F τ) := do
  let fixedPoint ← Checked.difference arena.fixedPoint arena.gradHat arena.current.gradPsi
  let fixedPoint ← Checked.accumulate fixedPoint (1 / gamma) arena.current.r
  return (Checked.maxNorm fixedPoint, { arena with fixedPoint })

/-- Forgets the curvature pairs. -/
def forget : Arena F τ :=
  { arena with curvature := arena.curvature.clear }

/-- The quasi-Newton direction. -/
def aim : Checked E (Arena F τ) := do
  let (direction, curvature) ← arena.curvature.apply 1 arena.current.r arena.direction
  return { arena with direction, curvature }

/-- Puts the candidate at the point of step `τ`. -/
def place (tau : F) : Checked E (Arena F τ) := do
  let x ← Checked.between tau arena.candidate.x arena.current.x arena.current.r arena.direction
  return { arena with candidate := { arena.candidate with x } }

/-- Offers the change from the current point to the candidate to the curvature memory. -/
def learn : Checked E (Arena F τ) := do
  let s ← Checked.difference arena.s arena.candidate.x arena.current.x
  let y ← Checked.difference arena.y arena.candidate.r arena.current.r
  let (_, curvature) ← arena.curvature.offer s y
  return { arena with s, y, curvature }

/-- The candidate and the current iterate change places. -/
def swap : Arena F τ :=
  { arena with current := arena.candidate, candidate := arena.current }

/-- Copies the solution to the arrays of the caller. -/
def deliver : Checked E (Arena F τ) := do
  let x ← Checked.copy arena.buffers.x arena.current.xHat
  let z ← Checked.copy arena.buffers.z arena.zHat
  let y ← Checked.copy arena.buffers.y arena.merit.multipliers
  let errZ ← Checked.minus arena.buffers.errZ arena.merit.constraint z
  return { arena with buffers := { x, z, y, errZ } }

end Arena

end ProximalNewton
