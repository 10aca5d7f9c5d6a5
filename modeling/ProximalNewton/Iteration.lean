import ProximalNewton.Curvature
import ProximalNewton.Search
import ProximalNewton.Job

/-!
One iteration of the proximal Newton method.

An iteration evaluates the merit function at the projected gradient step `x̂` of
its point and stops when the residual there meets the tolerance. Otherwise it
tightens the step size until the merit at `x̂` satisfies the descent condition,
takes a quasi-Newton direction from the curvature memory, searches for the next
point along it, and offers the change to the memory.

`Job.start` makes the state before the first iteration, and `Job.iterate` is an
iteration as a function of its state, with the events that it reports.
-/

namespace ProximalNewton

variable {F ε : Type} [Scalar F] {n m : Nat}

/-- What one iteration hands to the next. -/
structure State (F : Type) (n m depth : Nat) where
  current : Iterate F n
  step : StepSize F
  memory : CurvatureMemory F n depth
  ledger : Ledger F m
  /-- How often the step size has been tightened. -/
  tightenings : Nat
  /-- How many searches have stalled. -/
  stalls : Nat
  /-- The step of the last search, one before the first search. -/
  lastTau : F

/-- The point that a solve converged to. -/
structure Solution (F : Type) (n m : Nat) where
  x : Vector F n
  z : Vector F m
  y : Vector F m
  /-- Constraint residual `g(x) - z`. -/
  errZ : Vector F m
  summary : Summary F

/-- How an iteration ends: at a solution, or at the state of the next iteration
with the residual that did not meet the tolerance. -/
inductive Progress (F : Type) (n m depth : Nat) where
  | converged (solution : Solution F n m)
  | advanced (residual : F) (next : State F n m depth)

namespace Job

/-- How many curvature pairs the settings allow. -/
abbrev depth (job : Job F ε n m) : Nat :=
  job.params.memory.depth

/-- The settings ask for at least one curvature pair. -/
theorem depth_pos (job : Job F ε n m) : 0 < job.depth :=
  job.params_valid .memoryDepth

/-! ## The initial state -/

/-- Estimate of the Lipschitz constant at a point, by a finite difference of the
merit gradient. -/
def initialLipschitz (job : Job F ε n m) (x gradPsi : Vector F n) (ledger : Ledger F m) :
    Except ε (F × Ledger F m) := do
  let h := perturbation job.params.estimate x
  let (shifted, ledger) ← job.merit.gradient (x + h) ledger
  return (differenceQuotient h shifted.gradPsi gradPsi, ledger)

/-- The state before the first iteration: the step size comes from the estimate
at the initial guess, which must be finite and is not taken below `lMin`. -/
def start (job : Job F ε n m) : Except (SolveError F ε) (State F n m job.depth) := do
  let (initial, ledger) ← (job.merit.evaluate job.x Ledger.blank).mapError .oracle
  let (lipschitz, ledger) ←
    (job.initialLipschitz job.x initial.gradPsi ledger).mapError .oracle
  if Scalar.isFinite lipschitz then
    let step := StepSize.ofLipschitz (maxNum lipschitz job.params.estimate.lMin)
    return {
      current := .ofPoint job.C step.gamma job.x initial.gradPsi initial.psi
      step, ledger
      memory := .empty job.params.memory.curvatureTol job.depth_pos
      tightenings := 0
      stalls := 0
      lastTau := 1 }
  else
    throw (.stepSize 0 0 lipschitz)

/-! ## One iteration -/

/-- The state after one tightening: the step size has changed, so the iterate is
computed again and the curvature pairs, which belong to the old step size, are
forgotten. -/
def tighten (job : Job F ε n m) (state : State F n m job.depth) : State F n m job.depth :=
  let step := state.step.halved
  { state with
    step
    current := state.current.withGamma job.C step.gamma
    memory := state.memory.clear
    tightenings := state.tightenings + 1 }

/-- Tightens the step size until the merit `psiHat` at `x̂` satisfies the descent
condition, after `updates` tightenings of this iteration and with `left` more
permitted. -/
def adapt (job : Job F ε n m) (iteration updates left : Nat)
    (state : State F n m job.depth) (psiHat : F) :
    Traced (Event F) (SolveError F ε) (State F n m job.depth) :=
  if state.current.descentLimit state.step < psiHat then
    match left with
    | 0 => Traced.fail (.stepSize iteration updates state.step.lipschitz)
    | left + 1 => do
      let state := job.tighten state
      Traced.emit (.tightened { iteration, update := updates + 1, step := state.step })
      let (value, ledger) ←
        Traced.ofExcept ((job.merit.value state.current.xHat state.ledger).mapError .oracle)
      job.adapt iteration (updates + 1) left { state with ledger } value.psi
  else
    return state

/-- The search of an iteration. -/
def search (job : Job F ε n m) (iteration : Nat) (state : State F n m job.depth) :
    Search F ε n m where
  merit := job.merit
  C := job.C
  step := state.step
  tauMin := job.params.search.tauMin
  iteration := iteration
  current := state.current
  direction := state.memory.applyInverse 1 state.current.r

/-- The state of the next iteration: the point that the search ended at, and the
memory with the change of point and residual offered to it. -/
def advance (job : Job F ε n m) (state : State F n m job.depth)
    (result : SearchResult F n m) : State F n m job.depth :=
  { state with
    current := result.trial
    memory := state.memory.offer (result.trial.x - state.current.x)
      (result.trial.r - state.current.r)
    ledger := result.ledger
    stalls := if result.accepted then state.stalls else state.stalls + 1
    lastTau := result.tau }

/-- What an iteration reports first. -/
def report (job : Job F ε n m) (iteration : Nat) (state : State F n m job.depth)
    (residual : F) : IterationReport F where
  iteration := iteration
  psi := state.current.psi
  residual := residual
  lipschitz := state.step.lipschitz
  gamma := state.step.gamma
  normR := Scalar.sqrt state.current.normSqR
  pairs := state.memory.size

/-- The solution at `x̂`, where the ledger's last evaluation was. -/
def solution (job : Job F ε n m) (iteration : Nat) (state : State F n m job.depth)
    (residual : F) (z : Vector F m) : Solution F n m where
  x := state.current.xHat
  z := z
  y := state.ledger.multipliers
  errZ := state.ledger.constraint - z
  summary := {
    iterations := iteration
    residual
    step := state.step
    tightenings := state.tightenings
    stalls := state.stalls
    lastTau := state.lastTau
    fEvals := state.ledger.fEvals
    gradEvals := state.ledger.gradEvals }

/-- One iteration. -/
def iterate (job : Job F ε n m) (iteration : Nat) (state : State F n m job.depth) :
    Traced (Event F) (SolveError F ε) (Progress F n m job.depth) := do
  let (atHat, ledger) ← Traced.ofExcept
    ((job.merit.evaluate state.current.xHat state.ledger).mapError .oracle)
  let state := { state with ledger }
  let residual :=
    ProximalNewton.residual state.step.gamma state.current.r atHat.gradPsi state.current.gradPsi
  Traced.emit (.iteration (job.report iteration state residual))
  if residual ≤ job.eps then
    let solution := job.solution iteration state residual atHat.z
    Traced.emit (.finished solution.summary)
    return .converged solution
  else
    let state ← job.adapt iteration 0 job.params.estimate.maxUpdates state atHat.psi
    let result ← ((job.search iteration state).run state.ledger).mapError .oracle
    return .advanced residual (job.advance state result)

/-! ## Each way an iteration can go on -/

section Ways

variable (job : Job F ε n m) {state : State F n m job.depth} {atHat : Evaluation F n m}
  {ledger : Ledger F m} {psiHat : F}

theorem adapt_of_le (descends : ¬ state.current.descentLimit state.step < psiHat)
    (iteration updates left : Nat) :
    job.adapt iteration updates left state psiHat = pure state := by
  unfold adapt
  rw [if_neg descends]

theorem adapt_of_exhausted (exceeds : state.current.descentLimit state.step < psiHat)
    (iteration updates : Nat) :
    job.adapt iteration updates 0 state psiHat =
      Traced.fail (.stepSize iteration updates state.step.lipschitz) := by
  unfold adapt
  rw [if_pos exceeds]

theorem adapt_of_exceeds (exceeds : state.current.descentLimit state.step < psiHat)
    (iteration updates left : Nat) :
    job.adapt iteration updates (left + 1) state psiHat = (do
      let state := job.tighten state
      Traced.emit (.tightened { iteration, update := updates + 1, step := state.step })
      let (value, ledger) ←
        Traced.ofExcept ((job.merit.value state.current.xHat state.ledger).mapError .oracle)
      job.adapt iteration (updates + 1) left { state with ledger } value.psi) := by
  rw [adapt, if_pos exceeds]

theorem iterate_of_error {cause : ε}
    (failed : job.merit.evaluate state.current.xHat state.ledger = .error cause)
    (iteration : Nat) : job.iterate iteration state = ⟨[], .error (.oracle cause)⟩ := by
  unfold iterate
  rw [failed]
  rfl

theorem iterate_of_met
    (evaluated : job.merit.evaluate state.current.xHat state.ledger = .ok (atHat, ledger))
    (met : ProximalNewton.residual state.step.gamma state.current.r atHat.gradPsi
      state.current.gradPsi ≤ job.eps) (iteration : Nat) :
    job.iterate iteration state =
      let measured := ProximalNewton.residual state.step.gamma state.current.r atHat.gradPsi
        state.current.gradPsi
      let solution := job.solution iteration { state with ledger } measured atHat.z
      ⟨[.iteration (job.report iteration { state with ledger } measured),
        .finished solution.summary], .ok (.converged solution)⟩ := by
  unfold iterate
  rw [evaluated]
  dsimp only [Except.mapError, Traced.ofExcept_ok_bind, Traced.emit_bind]
  rw [if_pos met]
  rfl

theorem iterate_of_unmet
    (evaluated : job.merit.evaluate state.current.xHat state.ledger = .ok (atHat, ledger))
    (unmet : ¬ ProximalNewton.residual state.step.gamma state.current.r atHat.gradPsi
      state.current.gradPsi ≤ job.eps) (iteration : Nat) :
    job.iterate iteration state = (do
      let measured := ProximalNewton.residual state.step.gamma state.current.r atHat.gradPsi
        state.current.gradPsi
      Traced.emit (.iteration (job.report iteration { state with ledger } measured))
      let state ← job.adapt iteration 0 job.params.estimate.maxUpdates { state with ledger }
        atHat.psi
      let result ← ((job.search iteration state).run state.ledger).mapError .oracle
      return .advanced measured (job.advance state result)) := by
  unfold iterate
  rw [evaluated]
  dsimp only [Except.mapError, Traced.ofExcept_ok_bind]
  rw [if_neg unmet]

end Ways

end Job

end ProximalNewton
