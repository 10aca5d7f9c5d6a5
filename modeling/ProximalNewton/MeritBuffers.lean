import ProximalNewton.Checked
import ProximalNewton.Fault

/-!
The merit function in arrays.

`Routines` are the functions of a problem as a solve calls them: they are handed arrays, write
over one of them, and may keep a state of their own from one call to the next. A routine that
fails ends the solve. `ArrayMerit` is a merit function whose functions are routines. Its
evaluations write over the `MeritBuffers` that it keeps and over the arrays that the caller
lends, and check every access.
-/

namespace ProximalNewton

variable {F ε τ : Type}

/-! ## Routines -/

/-- What a routine leaves behind: its own state and the array that it was to write over, and
whether it failed. -/
structure Written (F ε τ : Type) where
  world : τ
  out : Array F
  outcome : Except ε Unit

/-- The functions of a problem, with a state of type `τ` of their own. Those that give a vector
write it over the last array. -/
structure Routines (F ε τ : Type) where
  /-- The objective. -/
  f : τ → Array F → τ × Except ε F
  /-- The gradient of the objective. -/
  gradF : τ → Array F → Array F → Written F ε τ
  /-- The constraint map. -/
  g : τ → Array F → Array F → Written F ε τ
  /-- The transposed Jacobian of the constraint map, applied to the second array. -/
  gradG : τ → Array F → Array F → Array F → Written F ε τ

/-- Every routine keeps the size of the array that it writes over. -/
structure Routines.KeepSizes (routines : Routines F ε τ) : Prop where
  gradF : ∀ world x out, (routines.gradF world x out).out.size = out.size
  g : ∀ world x out, (routines.g world x out).out.size = out.size
  gradG : ∀ world x y out, (routines.gradG world x y out).out.size = out.size

/-- What was written, unless the routine failed. -/
def Written.take (written : Written F ε τ) : Checked (SolveError F ε) (τ × Array F) :=
  match written.outcome with
  | .ok () => return (written.world, written.out)
  | .error cause => .error (.failed (.oracle cause))

/-! ## Ingredients -/

namespace Checked

variable {E : Type} [Scalar F]

/-- The slack of a constraint value, written over `z`. -/
def slack (D : Bounds F) (g shift z : Array F) : Checked E (Array F) := do
  agree g.size shift.size
  agree g.size z.size
  let shifted ← plus z g shift
  project D shifted

/-- The multiplier estimate, written over `yHat`. -/
def multiplierEstimate (z g y sigma yHat : Array F) : Checked E (Array F) := do
  agree z.size g.size
  agree y.size sigma.size
  agree yHat.size y.size
  rewrite yHat fun i _ =>
    return (← read sigma i) * ((← read g i) - (← read z i)) + (← read y i)

/-- Weighted squared distance of the shifted constraint value from its slack. -/
def distanceSq (g shift z sigma : Array F) : Checked E F :=
  sum z.size fun i => do
    let d := (← read g i) + (← read shift i) - (← read z i)
    return (← read sigma i) * d * d

/-- An array added to another one in place. -/
def add (v out : Array F) : Checked E (Array F) :=
  rewrite out fun i old => return old + (← read v i)

end Checked

/-! ## Evaluations -/

/-- The arrays of a merit function, the state of its routines, and how often its value and its
gradient have been evaluated. -/
structure MeritBuffers (F τ : Type) where
  world : τ
  constraint : Array F
  adjoint : Array F
  multipliers : Array F
  fEvals : Nat
  gradEvals : Nat

/-- What stays fixed while a merit function is evaluated. -/
structure ArrayMerit (F ε τ : Type) where
  routines : Routines F ε τ
  D : Bounds F
  sigma : Array F
  y : Array F

variable [Scalar F]

/-- The arrays of a merit function that has not been evaluated. -/
def MeritBuffers.allocate (world : τ) (n m : Nat) : MeritBuffers F τ where
  world := world
  constraint := Array.replicate m 0
  adjoint := Array.replicate n 0
  multipliers := Array.replicate m 0
  fEvals := 0
  gradEvals := 0

namespace ArrayMerit

variable (merit : ArrayMerit F ε τ)

/-- The shift `Σ⁻¹y` of the constraint value. -/
def shift : Array F :=
  merit.y.zipWith (· / ·) merit.sigma

/-- The merit value, from the constraint value and the slack that have been written. -/
def psi (x z : Array F) (buffers : MeritBuffers F τ) :
    Checked (SolveError F ε) (F × MeritBuffers F τ) := do
  let distanceSq ← Checked.distanceSq buffers.constraint merit.shift z merit.sigma
  match merit.routines.f buffers.world x with
  | (world, .ok f) =>
    return (f + 0.5 * distanceSq, { buffers with world, fEvals := buffers.fEvals + 1 })
  | (_, .error cause) => .error (.failed (.oracle cause))

/-- Writes the constraint value over its buffer and the slack over `z`. -/
def writeSlack (x z : Array F) (buffers : MeritBuffers F τ) :
    Checked (SolveError F ε) (Array F × MeritBuffers F τ) := do
  let (world, constraint) ← (merit.routines.g buffers.world x buffers.constraint).take
  let z ← Checked.slack merit.D constraint merit.shift z
  return (z, { buffers with world, constraint })

/-- Slack and merit value at a point. -/
def value (x z : Array F) (buffers : MeritBuffers F τ) :
    Checked (SolveError F ε) (F × Array F × MeritBuffers F τ) := do
  let (z, buffers) ← merit.writeSlack x z buffers
  let (psi, buffers) ← merit.psi x z buffers
  return (psi, z, buffers)

/-- Writes the merit gradient over `gradPsi`, with the adjoint for the multiplier estimate over
its buffer. -/
def writeGradient (x gradPsi : Array F) (buffers : MeritBuffers F τ) :
    Checked (SolveError F ε) (Array F × MeritBuffers F τ) := do
  let (world, gradPsi) ← (merit.routines.gradF buffers.world x gradPsi).take
  let (world, adjoint) ← (merit.routines.gradG world x buffers.multipliers buffers.adjoint).take
  let gradPsi ← Checked.add adjoint gradPsi
  return (gradPsi, { buffers with world, adjoint })

/-- Slack, multiplier estimate and merit gradient at a point. -/
def gradient (x z gradPsi : Array F) (buffers : MeritBuffers F τ) :
    Checked (SolveError F ε) (Array F × Array F × MeritBuffers F τ) := do
  let (z, buffers) ← merit.writeSlack x z buffers
  let multipliers ← Checked.multiplierEstimate z buffers.constraint merit.y merit.sigma
    buffers.multipliers
  let (gradPsi, buffers) ← merit.writeGradient x gradPsi
    { buffers with multipliers, gradEvals := buffers.gradEvals + 1 }
  return (z, gradPsi, buffers)

/-- Slack, multiplier estimate, merit gradient and merit value at a point, with the constraint
map evaluated once. -/
def evaluate (x z gradPsi : Array F) (buffers : MeritBuffers F τ) :
    Checked (SolveError F ε) (F × Array F × Array F × MeritBuffers F τ) := do
  let (z, gradPsi, buffers) ← merit.gradient x z gradPsi buffers
  let (psi, buffers) ← merit.psi x z buffers
  return (psi, z, gradPsi, buffers)

end ArrayMerit

end ProximalNewton
